import SuiId.Core.StepUp
import SuiId.Lib.WebUrl

/-!
# Where a step-up really returns to

`sanitise_return_to` compares the text that it is given with the allowed prefixes, and a browser
takes the dot segments of that text away before it follows it.  `isAllowed_iff` follows an accepted
text: the page that it leads to is allowed if the names that no later `..` takes back begin with a
directory of the list.
-/

namespace SuiId.ReturnPaths

open Lib Lib.UrlPath Lib.WebUrl

/-! ## Locations and raw texts -/

section Pages

variable {Host : Type} (E : Edition Host) (page : WebUrl Host)

/-- A browser that follows `location` from `page` stays on its origin, on a page of the list. -/
def IsAllowed (location : String) : Prop :=
  ∃ url, WebUrl.resolve E page location.toList = some url ∧
    (url.scheme = page.scheme ∧ url.host = page.host ∧ url.port = page.port) ∧
    (pathText url.path = "/me/security".toList ∨
      ∃ start ∈ stepUpReturnAllowlist, start.toList <+: pathText url.path)

end Pages

/-- The directories of `STEP_UP_RETURN_ALLOWLIST`. -/
def allowedDirectories : List (List (List Char)) :=
  [["admin".toList, "users".toList], ["admin".toList, "clients".toList],
    ["admin".toList, "signing-keys".toList], ["admin".toList, "settings".toList],
    ["me".toList, "security".toList]]

/-- The segments of a text that begins with a slash, up to its query or its fragment. -/
def segments (raw : String) : List (List Char) :=
  (upTo '?' (upTo '#' (raw.toList.tail.rdropWhile (· = ' ')))).splitOnP isSlash

/-- The names that no later `..` takes back begin with an allowed directory and go on, or they are
`me` and `security`. -/
def LandsAllowed (raw : String) : Prop :=
  landing (segments raw) = ["me".toList, "security".toList] ∨
    ∃ directory ∈ allowedDirectories, ∃ next rest,
      landing (segments raw) = directory ++ next :: rest

/-- The texts that the checks let through: an allowed prefix, no backslash and no control. -/
def Accepted (raw : String) : Prop :=
  (∃ start ∈ stepUpReturnAllowlist, Text.startsWith raw start = true) ∧
    ∀ c ∈ raw.toList, c.toNat ≠ 0x5c ∧ isControl c = false

/-! ## The checks -/

/-- What every allowed prefix begins with. -/
theorem exists_rooted {raw : String}
    (h : ∃ start ∈ stepUpReturnAllowlist, Text.startsWith raw start = true) :
    ∃ c rest, raw.toList = '/' :: c :: rest ∧ isSlash c = false := by
  have hstarts : ∀ start ∈ stepUpReturnAllowlist, ∃ c tail,
      start.toList = '/' :: c :: tail ∧ isSlash c = false := by
    intro start hstart
    simp only [stepUpReturnAllowlist, List.mem_cons, List.not_mem_nil, or_false] at hstart
    rcases hstart with rfl | rfl | rfl | rfl | rfl <;> exact ⟨_, _, rfl, by decide⟩
  obtain ⟨start, hstart, hraw⟩ := h
  obtain ⟨c, tail, htext, hc⟩ := hstarts start hstart
  obtain ⟨rest, hrest⟩ := List.isPrefixOf_iff_prefix.mp hraw
  refine ⟨c, tail ++ rest, ?_, hc⟩
  rw [← hrest, htext]
  rfl

theorem sanitiseReturnTo_of_accepted {raw : String} (h : Accepted raw) :
    sanitiseReturnTo raw = raw := by
  obtain ⟨hstart, hplain⟩ := h
  obtain ⟨c, rest, hraw, hc⟩ := exists_rooted hstart
  have hnonempty : ¬raw.isEmpty = true := by
    intro hempty
    rw [String.isEmpty_iff.mp hempty] at hraw
    cases hraw
  have hslash : ¬(!Text.startsWith raw "/") = true := by
    have hprefix : "/".toList <+: raw.toList := ⟨c :: rest, hraw.symm⟩
    have hstarts : Text.startsWith raw "/" = true := List.isPrefixOf_iff_prefix.mpr hprefix
    simp [hstarts]
  have hsecond : ¬raw.toList.tail.head? = some '/' := by
    rw [hraw]
    intro h
    obtain rfl : c = '/' := Option.some.inj h
    exact absurd hc (by decide)
  have hbackslash : ¬(raw.toList.any fun c => c.toNat = 0x5c) = true := by
    rw [Bool.not_eq_true, List.any_eq_false]
    exact fun c hc => by simp [(hplain c hc).1]
  have hcontrol : ¬raw.toList.any isControl = true := by
    rw [Bool.not_eq_true, List.any_eq_false]
    exact fun c hc => by simp [(hplain c hc).2]
  have hsame : sameSiteReturnPath raw = some raw := by
    rw [sameSiteReturnPath, if_neg hnonempty, if_neg hslash, if_neg hsecond, if_neg hbackslash,
      if_neg hcontrol]
  rw [sanitiseReturnTo, hsame]
  have hany : (stepUpReturnAllowlist.any fun start => Text.startsWith raw start) = true :=
    List.any_eq_true.mpr hstart
  simp [hany]

theorem sanitiseReturnTo_of_refused {raw : String} (h : ¬Accepted raw) :
    sanitiseReturnTo raw = "/me/security" := by
  unfold sanitiseReturnTo sameSiteReturnPath
  split
  · rfl
  · next accepted hsame =>
    split_ifs at hsame with hempty hslash hsecond hbackslash hcontrol
    obtain rfl := Option.some.inj hsame
    have hplain : ∀ c ∈ raw.toList, c.toNat ≠ 0x5c ∧ isControl c = false := by
      intro c hc
      rw [List.any_eq_true] at hbackslash hcontrol
      push Not at hbackslash hcontrol
      exact ⟨by simpa using hbackslash c hc, by simpa using hcontrol c hc⟩
    have hany : (stepUpReturnAllowlist.any fun start => Text.startsWith raw start) = false := by
      rw [List.any_eq_false]
      exact fun start hstart hraw => h ⟨⟨start, hstart, hraw⟩, hplain⟩
    simp [hany]

/-! ## The page that a browser loads -/

section Pages

variable {Host : Type} {E : Edition Host} {page : WebUrl Host}

/-- The segments of a text have no slash. -/
theorem slash_notMem_segments {raw : String} {segment : List Char} (h : segment ∈ segments raw) :
    '/' ∉ segment := by
  intro hmem
  have hslash := eq_false_of_mem_splitOnP h '/' hmem
  exact absurd hslash (by decide)

/-- What a browser makes of a text in the form that the checks require. -/
theorem exists_resolved {raw : String} {c : Char} {rest : List Char}
    (hraw : raw.toList = '/' :: c :: rest) (hc : isSlash c = false)
    (hplain : ∀ c ∈ raw.toList, isControl c = false) :
    ∃ url, WebUrl.resolve E page raw.toList = some url ∧
      (url.scheme = page.scheme ∧ url.host = page.host ∧ url.port = page.port) ∧
      url.path = (landing (segments raw)).map
        (UrlPath.percentEncode (inPathSet E.encodesCaret)) := by
  have hprintable : ∀ c ∈ raw.toList, 0x20 ≤ c.toNat := by
    intro c hc
    have hcontrol := hplain c hc
    simp only [isControl, Bool.or_eq_false_iff, decide_eq_false_iff_not] at hcontrol
    omega
  have hcleaned : cleaned raw.toList = '/' :: (c :: rest).rdropWhile (· = ' ') := by
    rw [cleaned_of_printable hprintable, hraw]
    exact rdropWhile_cons_of_neg (by decide) _
  have hsecond : ((c :: rest).rdropWhile (· = ' ')).head?.any isSlash = false := by
    cases htail : (c :: rest).rdropWhile (· = ' ') with
    | nil => rfl
    | cons d tail =>
      have hprefix := List.rdropWhile_prefix (· = ' ') (c :: rest)
      rw [htail] at hprefix
      have hd : d = c := (List.cons_prefix_cons.mp hprefix).1
      rw [hd]
      exact hc
  refine ⟨_, resolve_rooted hcleaned hsecond, ⟨rfl, rfl, rfl⟩, ?_⟩
  rw [withRest_path_root, segments, hraw, List.tail_cons]

theorem directories_plain (caret : Bool) : ∀ directory ∈ allowedDirectories, ∀ name ∈ directory,
    '/' ∉ name ∧ '%' ∉ name ∧ UrlPath.percentEncode (inPathSet caret) name = name := by
  cases caret <;> decide +kernel

theorem exists_start_iff (p : List Char → Prop) :
    (∃ start ∈ stepUpReturnAllowlist, p start.toList) ↔
      ∃ directory ∈ allowedDirectories, p (pathText directory ++ ['/']) := by
  have hsame : stepUpReturnAllowlist.map String.toList =
      allowedDirectories.map fun directory => pathText directory ++ ['/'] := by decide +kernel
  have hstart : (∃ text ∈ stepUpReturnAllowlist.map String.toList, p text) ↔
      ∃ start ∈ stepUpReturnAllowlist, p start.toList := by simp
  rw [← hstart, hsame]
  simp

/-- A text in the form that the checks require leads where its dot segments lead. -/
theorem isAllowed_iff {raw : String} {c : Char} {rest : List Char}
    (hraw : raw.toList = '/' :: c :: rest) (hc : isSlash c = false)
    (hplain : ∀ c ∈ raw.toList, isControl c = false) :
    IsAllowed E page raw ↔ LandsAllowed raw := by
  obtain ⟨url, hresolve, horigin, hpath⟩ := @exists_resolved _ E page _ _ _ hraw hc hplain
  have hslashes : ∀ segment ∈ url.path, '/' ∉ segment := by
    intro segment hsegment hslash
    rw [hpath, List.mem_map] at hsegment
    obtain ⟨source, hsource, rfl⟩ := hsegment
    have hplain : Char.isAlphanum '/' = false := by decide
    have hslash := (mem_of_mem_percentEncode hplain (by decide) hslash).1
    rcases mem_landing hsource with hsource | rfl
    · exact slash_notMem_segments hsource hslash
    · cases hslash
  -- The names of a directory of the list are written as they are encoded.
  have hdirectory : ∀ directory ∈ allowedDirectories,
      (pathText directory ++ ['/'] <+: pathText url.path ↔
        ∃ next rest, landing (segments raw) = directory ++ next :: rest) := by
    intro directory hdirectory
    have hnames := directories_plain E.encodesCaret directory hdirectory
    rw [isPrefix_pathText_iff hslashes fun name hname => (hnames name hname).1, hpath,
      map_percentEncode_begins_iff (fun name hname => (hnames name hname).2.1)
        fun name hname => (hnames name hname).2.2]
  have hdefault : pathText url.path = "/me/security".toList ↔
      landing (segments raw) = ["me".toList, "security".toList] := by
    have hnames := directories_plain E.encodesCaret ["me".toList, "security".toList] (by decide)
    constructor
    · intro htext
      have hnamed : url.path = ["me".toList, "security".toList] :=
        pathText_injective hslashes (fun name hname => (hnames name hname).1) htext
      rw [hpath] at hnamed
      exact map_percentEncode_eq (fun name hname => (hnames name hname).2.1) hnamed
    · intro hlanding
      rw [hpath, hlanding, map_percentEncode_self fun name hname => (hnames name hname).2.2]
      rfl
  have hpage : (pathText url.path = "/me/security".toList ∨
      ∃ start ∈ stepUpReturnAllowlist, start.toList <+: pathText url.path) ↔ LandsAllowed raw := by
    rw [LandsAllowed, hdefault, exists_start_iff fun start => start <+: pathText url.path]
    exact or_congr_right (exists_congr fun directory => and_congr_right (hdirectory directory))
  constructor
  · rintro ⟨url', hresolve', -, hallowed⟩
    obtain rfl : url = url' := by
      rw [hresolve] at hresolve'
      exact Option.some.inj hresolve'
    exact hpage.mp hallowed
  · exact fun hlands => ⟨url, hresolve, horigin, hpage.mpr hlands⟩

/-- Whatever text it is given, a step-up returns to the origin of the page and to a page of the list
if the text is refused or its dot segments stay in the directories of the list. -/
theorem step_up_returns_iff (raw : String) :
    (∀ handler ∈ [post, webauthnFinish], ∀ verified location,
      handler raw verified = some location → IsAllowed E page location) ↔
      (Accepted raw → LandsAllowed raw) := by
  have hlocation : (∀ handler ∈ [post, webauthnFinish], ∀ verified location,
      handler raw verified = some location → IsAllowed E page location) ↔
      IsAllowed E page (sanitiseReturnTo raw) := by
    constructor
    · intro h
      exact h post List.mem_cons_self (.ok ()) _ rfl
    · intro h handler hhandler verified location hlocation
      have hredirect : redirectAfter raw verified = some location := by
        simp only [List.mem_cons, List.not_mem_nil, or_false] at hhandler
        rcases hhandler with rfl | rfl <;> exact hlocation
      cases verified with
      | error e => cases hredirect
      | ok u =>
        rw [← Option.some.inj hredirect]
        exact h
  rw [hlocation]
  by_cases haccepted : Accepted raw
  · obtain ⟨c, rest, hraw, hc⟩ := exists_rooted haccepted.1
    rw [sanitiseReturnTo_of_accepted haccepted,
      isAllowed_iff hraw hc fun c hc => (haccepted.2 c hc).2]
    exact ⟨fun h _ => h, fun h => h haccepted⟩
  · rw [sanitiseReturnTo_of_refused haccepted]
    refine ⟨fun _ h => absurd h haccepted, fun _ => ?_⟩
    -- The default is a page of the list.
    have hrooted : "/me/security".toList = '/' :: 'm' :: "e/security".toList := rfl
    rw [isAllowed_iff hrooted (by decide) (List.all_iff_forall_prop.mp (by decide))]
    exact Or.inl (by decide)

end Pages

/-- A browser on a page of an issuer. -/
def samplePage : WebUrl String :=
  ⟨.https, [], [], "id.example", none, [], none, none⟩

def sampleEdition : Edition String :=
  ⟨fun host => some (String.ofList (host.map Char.toLower)), String.toList, true⟩

/-- The text begins with an allowed prefix, and `..` leads out of it. -/
theorem step_up_returns_elsewhere :
    ∃ location, post "/admin/users/../dashboard" (.ok ()) = some location ∧
      ¬IsAllowed sampleEdition samplePage location := by
  have hsanitised :
      post "/admin/users/../dashboard" (.ok ()) = some "/admin/users/../dashboard" := by
    decide +kernel
  have hrooted :
      "/admin/users/../dashboard".toList = '/' :: 'a' :: "dmin/users/../dashboard".toList := rfl
  refine ⟨_, hsanitised, fun h => ?_⟩
  rw [isAllowed_iff hrooted (by decide) (List.all_iff_forall_prop.mp (by decide +kernel))] at h
  have hlanding : landing (segments "/admin/users/../dashboard") =
      ["admin".toList, "dashboard".toList] := by decide +kernel
  rw [LandsAllowed, hlanding] at h
  rcases h with h | ⟨directory, hdirectory, next, rest, h⟩
  · exact absurd h (by decide)
  · have htwo : ∀ directory ∈ allowedDirectories, directory.length = 2 := by decide
    have hlength := congrArg List.length h
    simp [htwo directory hdirectory] at hlength

end SuiId.ReturnPaths
