import SuiId.Store.Archive

/-!
# Backups are read back as they were written

* `readTar_written_iff`: the tar reader gives a list back exactly when it is not empty and
  every body is shorter than `8 ^ 11` bytes.  A longer body loses the leading digits of its
  length in the header;
* `parse_cut_plain`: a cut tar lacks an entry or is read like the whole;
* `open_altered`: the envelope opens nothing but what it sealed, under its passphrase.
-/

namespace SuiId

/-! ## The tar -/

/-- The reader gives back what the writer was given. -/
def TarRoundTrip (entries : List (String × Bytes)) : Prop :=
  ∃ written, writeTarEntries entries = .ok written ∧
    readTar (written ++ tarTerminator) = .ok entries

/-- Names shorter than 100 bytes are written. -/
theorem exists_writeTarEntries {entries : List (String × Bytes)}
    (h : ∀ e ∈ entries, (nameBytes e.1).length < 100) :
    ∃ written, writeTarEntries entries = .ok written := by
  induction entries with
  | nil => exact ⟨[], rfl⟩
  | cons e entries ih =>
    obtain ⟨name, bytes⟩ := e
    obtain ⟨rest, hrest⟩ := ih fun e he => h e (List.mem_cons_of_mem _ he)
    have hname : (nameBytes name).length < 100 := h _ List.mem_cons_self
    rw [writeTarEntries, writeTarEntry, if_neg (by omega), hrest]
    exact ⟨_, rfl⟩

theorem readTar_eq_ok {bytes : Bytes} {entries : List (String × Bytes)} :
    readTar bytes = .ok entries ↔ readEntries bytes = .ok entries ∧ entries ≠ [] := by
  unfold readTar
  split
  · rename_i e he
    simp [he]
  · rename_i he
    rw [he]
    constructor
    · intro h
      cases h
    · rintro ⟨h, hne⟩
      injection h with h
      exact absurd h.symm hne
  · rename_i entries' hne he
    rw [he]
    constructor
    · intro h
      cases h
      exact ⟨rfl, hne⟩
    · exact fun h => h.1

theorem readTar_written_iff {entries : List (String × Bytes)} (hnul : NulFree entries)
    {written : Bytes} (hwritten : writeTarEntries entries = .ok written) :
    readTar (written ++ tarTerminator) = .ok entries ↔ entries ≠ [] ∧ Storable entries := by
  rw [readTar_eq_ok]
  constructor
  · rintro ⟨hread, hne⟩
    exact ⟨hne, storable_of_readEntries hnul hwritten _ hread⟩
  · rintro ⟨hne, hfits⟩
    exact ⟨readEntries_written hnul hfits hwritten _, hne⟩

/-! ## The entries -/

private theorem nameBytes_entries :
    (0 ∉ nameBytes entryManifest ∧ 0 ∉ nameBytes entryDb ∧ 0 ∉ nameBytes entryKey) ∧
      (nameBytes entryManifest).head? = some 77 := by
  decide +kernel

theorem backupEntries_nulFree (json db key : Bytes) : NulFree (backupEntries json db key) := by
  obtain ⟨⟨hmanifest, hdb, hkey⟩, -⟩ := nameBytes_entries
  intro e he
  simp only [backupEntries, List.mem_cons, List.not_mem_nil, or_false] at he
  rcases he with rfl | rfl | rfl
  · exact hmanifest
  · exact hdb
  · exact hkey

section Entries

variable {A : ArchivePrimitives} {manifest : Manifest} {json db key : Bytes}

theorem parseEntries_backup (hjson : A.decodeManifest json = some manifest) :
    parseEntries A (backupEntries json db key) = .ok (manifest, db, key) := by
  have hm : findEntry (backupEntries json db key) entryManifest = some json := rfl
  have hd : findEntry (backupEntries json db key) entryDb = some db := rfl
  have hk : findEntry (backupEntries json db key) entryKey = some key := rfl
  simp only [parseEntries, hm, hd, hk, hjson]

/-- Without the last entries there is an error. -/
theorem parseEntries_take (hjson : A.decodeManifest json = some manifest) (k : Nat) :
    parseEntries A ((backupEntries json db key).take k) = .ok (manifest, db, key) ∨
      ∃ e, parseEntries A ((backupEntries json db key).take k) = .error e := by
  match k with
  | 0 => exact .inr ⟨.missingDatabaseEntry, rfl⟩
  | 1 =>
    have hm : findEntry ((backupEntries json db key).take 1) entryManifest = some json := rfl
    have hd : findEntry ((backupEntries json db key).take 1) entryDb = none := rfl
    refine .inr ⟨.missingDatabaseEntry, ?_⟩
    simp only [parseEntries, hm, hd, hjson]
  | 2 =>
    have hm : findEntry ((backupEntries json db key).take 2) entryManifest = some json := rfl
    have hd : findEntry ((backupEntries json db key).take 2) entryDb = some db := rfl
    have hk : findEntry ((backupEntries json db key).take 2) entryKey = none := rfl
    refine .inr ⟨.missingKeyEntry, ?_⟩
    simp only [parseEntries, hm, hd, hk, hjson]
  | k + 3 =>
    have hall : (backupEntries json db key).take (k + 3) = backupEntries json db key :=
      List.take_of_length_le (by simp [backupEntries])
    rw [hall]
    exact .inl (parseEntries_backup hjson)

end Entries

/-! ## Plain archives -/

/-- These contents, or an error. -/
def SameOrError (contents : Manifest × Bytes × Bytes)
    (result : Except BackupError (Nat × Manifest × Bytes × Bytes)) : Prop :=
  (∃ n, result = .ok (n, contents)) ∨ ∃ e, result = .error e

section Plain

variable {A : ArchivePrimitives} {manifest : Manifest} {json db key entries : Bytes}

/-- A tar does not begin like an envelope. -/
private theorem not_isEncrypted_tar (hentries : writeTarEntries (backupEntries json db key) =
    .ok entries) (rest : Bytes) {cut : Bytes} (hcut : cut <+: entries ++ rest) :
    isEncrypted cut = false := by
  obtain ⟨entry, rest', hentry, -, rfl⟩ := writeTarEntries_cons hentries
  have hhead : (entry ++ rest' ++ rest).head? = some 77 := by
    unfold writeTarEntry at hentry
    split at hentry
    · cases hentry
    · cases hentry
      simp only [tarHeader, headerWith, headerStart, List.append_assoc]
      have hname := nameBytes_entries.2
      cases hbytes : nameBytes entryManifest with
      | nil =>
        rw [hbytes] at hname
        cases hname
      | cons b bs =>
        rw [hbytes] at hname
        exact hname
  obtain ⟨tail, htail⟩ := hcut
  cases cut with
  | nil => rfl
  | cons b cut =>
    rw [← htail, List.cons_append, List.head?_cons] at hhead
    have hb : b = 77 := Option.some.inj hhead
    subst hb
    rw [isEncrypted, Bool.and_eq_false_iff]
    refine .inr ?_
    rw [beq_eq_false_iff_ne]
    intro h
    have hfirst := congrArg List.head? h
    simp [encryptedMagic] at hfirst

/-- What is read of a plain archive, whole or cut. -/
theorem parse_cut_plain (hjson : A.decodeManifest json = some manifest)
    (hfits : Storable (backupEntries json db key))
    (hentries : writeTarEntries (backupEntries json db key) = .ok entries) {cut : Bytes}
    (hcut : cut <+: entries ++ tarTerminator) (passphrase : Option String) :
    SameOrError (manifest, db, key) (parseBackup A cut passphrase) := by
  have hplain := not_isEncrypted_tar hentries tarTerminator hcut
  cases passphrase with
  | some pass =>
    refine .inr ⟨.passphraseForPlainBackup, ?_⟩
    simp [parseBackup, openArchive, hplain]
  | none =>
    have hopen : openArchive A cut none = .ok cut := by simp [openArchive, hplain]
    rw [parseBackup, hopen]
    show SameOrError (manifest, db, key) (parseTar A cut)
    rw [parseTar]
    cases hread : readTar cut with
    | error e => exact .inr ⟨e, rfl⟩
    | ok some_entries =>
      have hentries' := (readTar_eq_ok.mp hread).1
      have hleads := readEntries_prefix (backupEntries_nulFree json db key) hfits hentries _ hcut
      rcases hleads with ⟨e, he⟩ | ⟨k, hk⟩
      · rw [hentries'] at he
        cases he
      · rw [hentries'] at hk
        cases hk
        have hcut : parseEntries A ((backupEntries json db key).take k) = .ok (manifest, db, key) ∨
            ∃ e, parseEntries A ((backupEntries json db key).take k) = .error e :=
          parseEntries_take hjson k
        rcases hcut with hok | ⟨e, he⟩
        · exact .inl ⟨cut.length, by simp only [hok]; rfl⟩
        · exact .inr ⟨e, by simp only [he]; rfl⟩

/-- The whole tar is read back. -/
theorem parseTar_written (hjson : A.decodeManifest json = some manifest)
    (hfits : Storable (backupEntries json db key))
    (hentries : writeTarEntries (backupEntries json db key) = .ok entries) :
    parseTar A (entries ++ tarTerminator) =
      .ok ((entries ++ tarTerminator).length, manifest, db, key) := by
  have hread : readTar (entries ++ tarTerminator) = .ok (backupEntries json db key) :=
    (readTar_written_iff (backupEntries_nulFree json db key) hentries).mpr
      ⟨List.cons_ne_nil _ _, hfits⟩
  rw [parseTar, hread]
  simp only [parseEntries_backup hjson]
  rfl

end Plain

/-! ## Encrypted archives -/

/-- Cut, or one byte replaced. -/
def Altered (bytes bytes' : Bytes) : Prop := bytes' <+: bytes ∨ ∃ i b, bytes' = bytes.set i b

theorem Altered.drop {bytes bytes' : Bytes} (h : Altered bytes bytes') (n : Nat) :
    Altered (bytes.drop n) (bytes'.drop n) := by
  rcases h with h | ⟨i, b, rfl⟩
  · exact .inl (List.IsPrefix.drop h n)
  · rw [List.drop_set]
    by_cases hi : i < n
    · rw [if_pos hi]
      exact .inl (List.prefix_refl _)
    · rw [if_neg hi]
      exact .inr ⟨i - n, b, rfl⟩

/-- What the encrypted archive relies on for this backup: no other passphrase or salt derives
its key, and the AEAD opens only the untampered ciphertext, under its key and nonce. -/
structure SealHolds (A : ArchivePrimitives) (s : Sealing) (message : Bytes) : Prop where
  key_unique : ∀ {key pass salt}, A.deriveKey s.passphrase s.salt = some key →
    A.deriveKey pass salt = some key → pass = s.passphrase ∧ salt = s.salt
  opens_only : ∀ {key ct key' nonce ct' message'}, A.deriveKey s.passphrase s.salt = some key →
    A.encrypt key s.nonce message = some ct → Altered ct ct' →
    A.decrypt key' nonce ct' = some message' → key' = key ∧ nonce = s.nonce ∧ ct' = ct

section Sealed

variable {A : ArchivePrimitives} {s : Sealing} {message archive : Bytes}

theorem encryptEnvelope_ok (h : encryptEnvelope A s message = .ok archive) :
    ∃ key ct, A.deriveKey s.passphrase s.salt = some key ∧
      A.encrypt key s.nonce message = some ct ∧
      archive = encryptedMagic ++ (formatVersionBytes ++ (s.salt ++ (s.nonce ++ ct))) := by
  unfold encryptEnvelope at h
  split at h
  · cases h
  · rename_i key hkey
    split at h
    · cases h
    · rename_i ct hct
      cases h
      exact ⟨key, ct, hkey, hct, rfl⟩

theorem decryptEnvelope_ok {pass : String} {bytes plaintext : Bytes}
    (h : decryptEnvelope A pass bytes = .ok plaintext) :
    ∃ key, 68 ≤ bytes.length ∧ bytes.take 8 = encryptedMagic ∧
      ofBeBytes ((bytes.drop 8).take 4) = formatVersion ∧
      A.deriveKey pass ((bytes.drop 12).take 16) = some key ∧
      A.decrypt key ((bytes.drop 28).take 24) (bytes.drop 52) = some plaintext := by
  unfold decryptEnvelope at h
  split at h
  · cases h
  · rename_i hlength
    split at h
    · cases h
    · rename_i hmagic
      simp only at h
      split at h
      · cases h
      · rename_i hversion
        split at h
        · cases h
        · rename_i key hkey
          split at h
          · cases h
          · rename_i message hmessage
            cases h
            exact ⟨key, by omega, not_not.mp hmagic, not_not.mp hversion, hkey, hmessage⟩

/-- The version field has one spelling. -/
private theorem eq_formatVersionBytes {bytes : Bytes} (hlength : bytes.length = 4)
    (h : ofBeBytes bytes = formatVersion) : bytes = formatVersionBytes := by
  match bytes, hlength with
  | [a, b, c, d], _ =>
    simp only [ofBeBytes, formatVersion, List.foldl_cons, List.foldl_nil] at h
    have ha : a.toNat = 0 := by omega
    have hb : b.toNat = 0 := by omega
    have hc : c.toNat = 0 := by omega
    have hd : d.toNat = 1 := by omega
    have ha' : a = 0 := UInt8.toNat_inj.mp ha
    have hb' : b = 0 := UInt8.toNat_inj.mp hb
    have hc' : c = 0 := UInt8.toNat_inj.mp hc
    have hd' : d = 1 := UInt8.toNat_inj.mp hd
    rw [ha', hb', hc', hd', formatVersionBytes]

private theorem take_drop_append (bytes : Bytes) (n m : Nat) :
    (bytes.drop n).take m ++ bytes.drop (n + m) = bytes.drop n := by
  rw [← List.drop_drop]
  exact List.take_append_drop m _

/-- The fields of an envelope, put together again. -/
private theorem envelope_fields (bytes : Bytes) :
    bytes = bytes.take 8 ++ ((bytes.drop 8).take 4 ++ ((bytes.drop 12).take 16 ++
      ((bytes.drop 28).take 24 ++ bytes.drop 52))) := by
  rw [take_drop_append bytes 28 24, take_drop_append bytes 12 16, take_drop_append bytes 8 4,
    List.take_append_drop]

/-- The envelope opens nothing but what it sealed, under its passphrase. -/
theorem open_altered (hseal : SealHolds A s message)
    (harchive : encryptEnvelope A s message = .ok archive) {bytes : Bytes}
    (haltered : Altered archive bytes) {pass : String} {plaintext : Bytes}
    (hopen : openArchive A bytes (some pass) = .ok plaintext) :
    bytes = archive ∧ pass = s.passphrase := by
  have hdecrypt : decryptEnvelope A pass bytes = .ok plaintext := by
    unfold openArchive at hopen
    split at hopen
    · exact hopen
    · cases hopen
  obtain ⟨key, ct, hkey, hct, rfl⟩ := encryptEnvelope_ok harchive
  obtain ⟨key', hlength, hmagic, hversion, hkey', hmessage⟩ := decryptEnvelope_ok hdecrypt
  have hct' : Altered ct (bytes.drop 52) := by
    have hdrop := haltered.drop 52
    have hheader : (encryptedMagic ++ (formatVersionBytes ++ (s.salt ++ (s.nonce ++ ct)))).drop 52
        = ct := by
      rw [← List.append_assoc, ← List.append_assoc, ← List.append_assoc]
      apply List.drop_left'
      simp [encryptedMagic, formatVersionBytes, s.salt_length, s.nonce_length]
    rwa [hheader] at hdrop
  obtain ⟨rfl, hnonce, hsame⟩ := hseal.opens_only hkey hct hct' hmessage
  obtain ⟨hpass, hsalt⟩ := hseal.key_unique hkey hkey'
  have hversionBytes : (bytes.drop 8).take 4 = formatVersionBytes := by
    apply eq_formatVersionBytes _ hversion
    rw [List.length_take, List.length_drop]
    omega
  refine ⟨?_, hpass⟩
  rw [envelope_fields bytes, hmagic, hversionBytes, hsalt, hnonce, hsame]

theorem open_archive (hA : A.Lawful) (harchive : encryptEnvelope A s message = .ok archive) :
    openArchive A archive (some s.passphrase) = .ok message := by
  obtain ⟨key, ct, hkey, hct, rfl⟩ := encryptEnvelope_ok harchive
  have hlength := hA.length_encrypt hct
  have hencrypted :
      isEncrypted (encryptedMagic ++ (formatVersionBytes ++ (s.salt ++ (s.nonce ++ ct)))) =
        true := by
    simp [isEncrypted, encryptedMagic]
  have hlong : ¬ (encryptedMagic ++ (formatVersionBytes ++ (s.salt ++ (s.nonce ++ ct)))).length <
      8 + 4 + 16 + 24 + 16 := by
    simp only [List.length_append, s.salt_length, s.nonce_length, hlength, encryptedMagic,
      formatVersionBytes, List.length_cons, List.length_nil]
    omega
  have hfields : ∀ rest : Bytes,
      (encryptedMagic ++ rest).take 8 = encryptedMagic ∧
      (encryptedMagic ++ (formatVersionBytes ++ rest)).drop 8 = formatVersionBytes ++ rest ∧
      (encryptedMagic ++ (formatVersionBytes ++ rest)).drop 12 = rest := by
    intro rest
    refine ⟨rfl, rfl, rfl⟩
  have hsalt : (s.salt ++ (s.nonce ++ ct)).take 16 = s.salt := List.take_left' s.salt_length
  have hdrop28 : (encryptedMagic ++ (formatVersionBytes ++ (s.salt ++ (s.nonce ++ ct)))).drop 28 =
      s.nonce ++ ct := by
    rw [← List.append_assoc, ← List.append_assoc]
    apply List.drop_left'
    simp [encryptedMagic, formatVersionBytes, s.salt_length]
  have hdrop52 : (encryptedMagic ++ (formatVersionBytes ++ (s.salt ++ (s.nonce ++ ct)))).drop 52 =
      ct := by
    rw [← List.append_assoc, ← List.append_assoc, ← List.append_assoc]
    apply List.drop_left'
    simp [encryptedMagic, formatVersionBytes, s.salt_length, s.nonce_length]
  have hnonce : (s.nonce ++ ct).take 24 = s.nonce := List.take_left' s.nonce_length
  have hversion : ofBeBytes ((formatVersionBytes ++ (s.salt ++ (s.nonce ++ ct))).take 4) =
      formatVersion := rfl
  rw [openArchive, if_pos hencrypted]
  simp only [decryptEnvelope, if_neg hlong, (hfields _).1, (hfields _).2.1, (hfields _).2.2,
    hversion, hsalt, hkey, hdrop28, hnonce, hdrop52, hA.decrypt_encrypt hct, ne_eq,
    not_true_eq_false, if_false]

end Sealed

/-! ## The round trip -/

/-- What is read of a backup: `contents` is what it was written from. -/
structure BackupReadBack (A : ArchivePrimitives) (contents : Manifest × Bytes × Bytes)
    (sealing : Option Sealing) (archive : Bytes) : Prop where
  same : ∃ n, parseBackup A archive (sealing.map (·.passphrase)) = .ok (n, contents)
  /-- Every proper prefix, with any passphrase or none. -/
  cut : ∀ cut, cut <+: archive → cut ≠ archive → ∀ pass,
    SameOrError contents (parseBackup A cut pass)
  /-- One byte of an encrypted archive replaced, with any passphrase. -/
  changed : sealing.isSome → ∀ i b pass,
    SameOrError contents (parseBackup A (archive.set i b) (some pass))
  otherPassphrase : ∀ s, sealing = some s → ∀ pass, pass ≠ s.passphrase →
    ∃ e, parseBackup A archive (some pass) = .error e

section RoundTrip

variable {A : ArchivePrimitives} {manifest : Manifest} {json db key entries archive : Bytes}
  {s : Sealing}

/-- An encrypted archive, altered, and opened with any passphrase. -/
private theorem parse_altered (hjson : A.decodeManifest json = some manifest) (hA : A.Lawful)
    (hfits : Storable (backupEntries json db key))
    (hentries : writeTarEntries (backupEntries json db key) = .ok entries)
    (hseal : SealHolds A s (entries ++ tarTerminator))
    (harchive : encryptEnvelope A s (entries ++ tarTerminator) = .ok archive) {bytes : Bytes}
    (haltered : Altered archive bytes) (pass : String) :
    (bytes = archive ∧ pass = s.passphrase ∧ parseBackup A bytes (some pass) =
        .ok ((entries ++ tarTerminator).length, manifest, db, key)) ∨
      ∃ e, parseBackup A bytes (some pass) = .error e := by
  cases hopen : openArchive A bytes (some pass) with
  | error e =>
    refine .inr ⟨e, ?_⟩
    rw [parseBackup, hopen]
  | ok plaintext =>
    obtain ⟨rfl, rfl⟩ := open_altered hseal harchive haltered hopen
    refine .inl ⟨rfl, rfl, ?_⟩
    rw [parseBackup, open_archive hA harchive]
    exact parseTar_written hjson hfits hentries

private theorem sealed_readBack (hjson : A.decodeManifest json = some manifest) (hA : A.Lawful)
    (hfits : Storable (backupEntries json db key))
    (hentries : writeTarEntries (backupEntries json db key) = .ok entries)
    (hseal : SealHolds A s (entries ++ tarTerminator))
    (harchive : encryptEnvelope A s (entries ++ tarTerminator) = .ok archive) :
    BackupReadBack A (manifest, db, key) (some s) archive := by
  have hparse {bytes : Bytes} (haltered : Altered archive bytes) (pass : String) :=
    parse_altered hjson hA hfits hentries hseal harchive haltered pass
  have hsame {bytes : Bytes} (haltered : Altered archive bytes) (pass : String) :
      SameOrError (manifest, db, key) (parseBackup A bytes (some pass)) := by
    rcases hparse haltered pass with ⟨-, -, h⟩ | h
    · exact .inl ⟨_, h⟩
    · exact .inr h
  refine ⟨?_, fun cut hcut hne pass => ?_, fun _ i b pass => hsame (.inr ⟨i, b, rfl⟩) pass,
    fun s' hs' pass hpass => ?_⟩
  · refine ⟨(entries ++ tarTerminator).length, ?_⟩
    show parseBackup A archive (some s.passphrase) = _
    rw [parseBackup, open_archive hA harchive]
    exact parseTar_written hjson hfits hentries
  · cases pass with
    | some pass => exact hsame (.inl hcut) pass
    | none =>
      -- Too short to show that it is encrypted, it is too short for an entry.
      by_cases hencrypted : isEncrypted cut = true
      · refine .inr ⟨.passphraseRequired, ?_⟩
        rw [parseBackup, openArchive, if_pos hencrypted]
      · have hshort : cut.length < tarBlock := by
          by_contra hlong
          rw [tarBlock] at hlong
          obtain ⟨key', ct, -, -, rfl⟩ := encryptEnvelope_ok harchive
          have hmagic : cut.take 8 = encryptedMagic := by
            have htake := List.IsPrefix.take hcut 8
            have hlength : (cut.take 8).length = 8 := by
              rw [List.length_take]
              omega
            exact htake.eq_of_length hlength
          apply hencrypted
          rw [isEncrypted, hmagic]
          simp only [beq_self_eq_true, Bool.and_true, decide_eq_true_eq]
          omega
        have hend : readEntries cut = .ok [] := by
          apply readEntries_of_end
          rw [readEntry, if_pos hshort]
        refine .inr ⟨.tarEmpty, ?_⟩
        rw [parseBackup, openArchive, if_neg hencrypted]
        show parseTar A cut = .error .tarEmpty
        rw [parseTar, readTar, hend]
  · cases hs'
    rcases hparse (.inl (List.prefix_refl _)) pass with ⟨-, h, -⟩ | h
    · exact absurd h hpass
    · exact h

end RoundTrip

/-- A list of entries that is not empty, with names shorter than 100 bytes without a NUL and
bodies shorter than `8 ^ 11` bytes, is read back.  So is a backup of such a manifest, database
and key, plain or encrypted; cut, changed or opened with another passphrase it gives the same
contents or an error. -/
theorem backup_round_trip {entries : List (String × Bytes)} (hne : entries ≠ [])
    (hnames : ∀ e ∈ entries, (nameBytes e.1).length < 100) (hnul : NulFree entries)
    (hbodies : Storable entries) {A : ArchivePrimitives} (hA : A.Lawful) {manifest : Manifest}
    {json db key archive : Bytes} {sealing : Option Sealing}
    (hjson : A.encodeManifest manifest = some json)
    (hfits : Storable (backupEntries json db key))
    (hseal : ∀ s tar, sealing = some s → writeTarEntries (backupEntries json db key) = .ok tar →
      SealHolds A s (tar ++ tarTerminator))
    (harchive : writeArchive A manifest db key sealing = .ok archive) :
    TarRoundTrip entries ∧ BackupReadBack A (manifest, db, key) sealing archive := by
  constructor
  · obtain ⟨written, hwritten⟩ := exists_writeTarEntries hnames
    exact ⟨written, hwritten, (readTar_written_iff hnul hwritten).mpr ⟨hne, hbodies⟩⟩
  · have hdecode := hA.decode_encode hjson
    unfold writeArchive at harchive
    rw [hjson] at harchive
    simp only at harchive
    cases hentries : writeTarEntries (backupEntries json db key) with
    | error e =>
      rw [hentries] at harchive
      cases harchive
    | ok tar =>
      rw [hentries] at harchive
      cases sealing with
      | some s =>
        exact sealed_readBack hdecode hA hfits hentries (hseal s tar rfl hentries) harchive
      | none =>
        cases harchive
        refine ⟨⟨(tar ++ tarTerminator).length, ?_⟩,
          fun cut hcut _ pass => parse_cut_plain hdecode hfits hentries hcut pass,
          fun h => (by cases h), fun s h => (by cases h)⟩
        have hplain := not_isEncrypted_tar hentries tarTerminator (List.prefix_refl _)
        show parseBackup A (tar ++ tarTerminator) none = _
        simp only [parseBackup, openArchive, hplain, Bool.false_eq_true, if_false]
        exact parseTar_written hdecode hfits hentries

section Sample

private def sampleManifest : Manifest := ⟨1, "1", 1, "", "", ""⟩

private def sampleSealing : Sealing := ⟨"p", zeros 16, zeros 24, rfl, rfl⟩

/-- The tar of the sample. -/
private def sampleTar : Bytes :=
  match writeTarEntries (backupEntries [123, 125] [1] [2]) with
  | .ok tar => tar ++ tarTerminator
  | .error _ => []

/-- The tag: nines for the sample under its own key and nonce, else sevens. -/
private def sampleTag (key nonce message : Bytes) : Bytes :=
  List.replicate 16 (if key = [1] ∧ nonce = zeros 24 ∧ message = sampleTar then 9 else 7)

private def samplePrimitives : ArchivePrimitives where
  encodeManifest manifest := if manifest = sampleManifest then some [123, 125] else none
  decodeManifest json := if json = [123, 125] then some sampleManifest else none
  deriveKey pass salt := some (if pass = "p" ∧ salt = zeros 16 then [1] else [2])
  encrypt key nonce message := some (message ++ sampleTag key nonce message)
  decrypt key nonce ct :=
    let message := ct.take (ct.length - 16)
    if ct.length ≥ 16 ∧ ct.drop (ct.length - 16) = sampleTag key nonce message then some message
    else none

private theorem samplePrimitives_lawful : samplePrimitives.Lawful where
  decode_encode := by
    intro manifest json h
    simp only [samplePrimitives] at h ⊢
    by_cases hm : manifest = sampleManifest
    · rw [if_pos hm] at h
      cases h
      rw [if_pos rfl, hm]
    · rw [if_neg hm] at h
      cases h
  decrypt_encrypt := by
    intro key nonce message ct h
    cases h
    have hlength : (message ++ sampleTag key nonce message).length - 16 = message.length := by
      simp [sampleTag]
    simp only [samplePrimitives, hlength, List.take_left, List.drop_left]
    rw [if_pos]
    simp [sampleTag]
  length_encrypt := by
    intro key nonce message ct h
    cases h
    simp [sampleTag]

/-- The bytes of the sample show that it has no sevens. -/
private theorem seven_not_mem_sampleTar : (7 : UInt8) ∉ sampleTar := by
  decide +kernel

/-- An altered sample does not end in sixteen sevens. -/
private theorem altered_not_sevens {ct ct' : Bytes} (hct : (7 : UInt8) ∉ ct)
    (h : Altered ct ct') (k : Nat) : ct'.drop k ≠ List.replicate 16 7 := by
  intro hdrop
  rcases h with hleads | ⟨i, b, rfl⟩
  · apply hct
    have hmem : (7 : UInt8) ∈ ct'.drop k := by
      rw [hdrop]
      exact List.mem_replicate.mpr ⟨by omega, rfl⟩
    exact hleads.subset (List.mem_of_mem_drop hmem)
  · -- One of two neighbours is not the byte that was replaced.
    obtain ⟨t, ht, hne⟩ : ∃ t, t < 16 ∧ i ≠ k + t := by
      by_cases hik : i = k
      · exact ⟨1, by omega, by omega⟩
      · exact ⟨0, by omega, by omega⟩
    have hget : ((ct.set i b).drop k)[t]? = some 7 := by
      rw [hdrop, List.getElem?_replicate, if_pos ht]
    rw [List.getElem?_drop, List.getElem?_set_ne hne] at hget
    exact hct (List.mem_of_getElem? hget)

private theorem sample_sealHolds : SealHolds samplePrimitives sampleSealing sampleTar where
  key_unique := by
    intro key pass salt hkey hkey'
    simp only [samplePrimitives, sampleSealing, and_self, if_true] at hkey hkey' ⊢
    cases hkey
    by_cases hboth : pass = "p" ∧ salt = zeros 16
    · exact hboth
    · rw [if_neg hboth] at hkey'
      cases hkey'
  opens_only := by
    intro key ct key' nonce ct' message hkey hct haltered hmessage
    simp only [samplePrimitives, sampleSealing, and_self, if_true, Option.some.injEq] at hkey hct
    subst hkey
    have hnines : sampleTag [1] (zeros 24) sampleTar = List.replicate 16 9 := by
      rw [sampleTag, if_pos ⟨rfl, rfl, rfl⟩]
    rw [hnines] at hct
    have hnoseven : (7 : UInt8) ∉ ct := by
      rw [← hct, List.mem_append, List.mem_replicate]
      rintro (h | ⟨-, h⟩)
      · exact seven_not_mem_sampleTar h
      · cases h
    simp only [samplePrimitives] at hmessage
    split at hmessage
    · rename_i hdecrypts
      by_cases hown : key' = [1] ∧ nonce = zeros 24 ∧ ct'.take (ct'.length - 16) = sampleTar
      · obtain ⟨rfl, rfl, htake⟩ := hown
        refine ⟨rfl, rfl, ?_⟩
        have hparts := List.take_append_drop (ct'.length - 16) ct'
        rw [hdecrypts.2, htake, hnines] at hparts
        rw [← hparts, hct]
      · have hsevens := hdecrypts.2
        rw [sampleTag, if_neg hown] at hsevens
        exact absurd hsevens (altered_not_sevens hnoseven haltered _)
    · cases hmessage

/-- A small database and key, encrypted. -/
theorem backup_round_trip_sample :
    ∃ archive, TarRoundTrip [("a", [1])] ∧
      BackupReadBack samplePrimitives (sampleManifest, [1], [2]) (some sampleSealing)
        archive := by
  have hstorable : Storable (backupEntries [123, 125] [1] [2]) := by
    intro e he
    simp only [backupEntries, List.mem_cons, List.not_mem_nil, or_false] at he
    rcases he with rfl | rfl | rfl <;> decide
  have htar : ∃ tar, writeTarEntries (backupEntries [123, 125] [1] [2]) = .ok tar :=
    exists_writeTarEntries (by decide +kernel)
  obtain ⟨tar, htar⟩ := htar
  have hsample : sampleTar = tar ++ tarTerminator := by rw [sampleTar, htar]
  have hnul : NulFree [("a", [1])] := by
    intro e he
    rw [List.mem_singleton.mp he]
    decide +kernel
  have hjson : samplePrimitives.encodeManifest sampleManifest = some [123, 125] := by
    simp [samplePrimitives]
  have harchive : ∃ archive,
      writeArchive samplePrimitives sampleManifest [1] [2] (some sampleSealing) = .ok archive := by
    rw [writeArchive, hjson]
    simp only [htar]
    exact ⟨_, rfl⟩
  obtain ⟨archive, harchive⟩ := harchive
  have hsmall : Storable [("a", [1])] := by
    intro e he
    rw [List.mem_singleton.mp he]
    decide
  refine ⟨archive, backup_round_trip (List.cons_ne_nil _ _) (by decide +kernel) hnul hsmall
    samplePrimitives_lawful hjson hstorable (fun s tar' hs htar' => ?_) harchive⟩
  cases hs
  rw [htar] at htar'
  cases htar'
  rw [← hsample]
  exact sample_sealHolds

end Sample

/-- The empty list is refused when it is read, and a body of `8 ^ 11` bytes is written with a
size of zero. -/
theorem tar_round_trip_fails :
    ¬ TarRoundTrip [] ∧ ¬ TarRoundTrip [("sui-id.sqlite", zeros (8 ^ 11))] := by
  constructor
  · rintro ⟨written, hwritten, hread⟩
    exact ((readTar_written_iff (fun e he => by cases he) hwritten).mp hread).1 rfl
  · rintro ⟨written, hwritten, hread⟩
    have hnul : NulFree [("sui-id.sqlite", zeros (8 ^ 11))] := by
      intro e he
      rw [List.mem_singleton.mp he]
      exact nameBytes_entries.1.2.1
    have hfits := ((readTar_written_iff hnul hwritten).mp hread).2 _ (List.mem_singleton_self _)
    rw [length_zeros] at hfits
    exact Nat.lt_irrefl _ hfits

end SuiId
