import BucketMount.Errno
import BucketMount.Identity

/-!
# Credentials and how to give them up

The rules by which a process changes its user and its groups, and the one-way change to the job user that is made of
them (`Credentials.dropTo`): groups first, then the group, then the user, and a look at the result. The look is needed
because one number stands for "leave as it is" and is accepted without any effect.
-/

namespace BucketMount

structure Credentials where
  realUser : Nat
  effectiveUser : Nat
  savedUser : Nat
  realGroup : Nat
  effectiveGroup : Nat
  savedGroup : Nat
  groups : List Nat
deriving DecidableEq, Repr

/-- What a system allows: whether the group list may be set at all, and which numbers stand for a user or group. -/
structure IdRules where
  groupsAllowed : Bool
  isMapped : Nat → Bool

def IdRules.unrestricted : IdRules := ⟨true, fun n => n < 0xFFFFFFFF⟩

/-- The rules of a system that knows nobody but the superuser. -/
def IdRules.confined : IdRules := ⟨false, fun n => n = 0⟩

namespace Credentials

/-- The number that leaves an id as it is. -/
def unchanged : Nat := 0xFFFFFFFF

def ofUser (uid gid : Nat) (groups : List Nat) : Credentials := ⟨uid, uid, uid, gid, gid, gid, groups⟩

/-- Whether the process may change ids at will. -/
def IsPrivileged (c : Credentials) : Prop := c.effectiveUser = 0

instance (c : Credentials) : Decidable c.IsPrivileged := by
  unfold IsPrivileged
  infer_instance

def setGroups (rules : IdRules) (groups : List Nat) (c : Credentials) : Except Errno Credentials :=
  if ¬c.IsPrivileged ∨ ¬rules.groupsAllowed then .error .eperm
  else if groups.all rules.isMapped then .ok { c with groups := groups }
  else .error .einval

def requested (id current : Nat) : Nat := if id = unchanged then current else id

/-- Whether an id may be asked for by a process that is privileged or holds it already. -/
def MayRequest (privileged : Prop) (held : List Nat) (id : Nat) : Prop :=
  id = unchanged ∨ privileged ∨ id ∈ held

instance (privileged : Prop) [Decidable privileged] (held : List Nat) (id : Nat) :
    Decidable (MayRequest privileged held id) := by
  unfold MayRequest
  infer_instance

/-- The ids of one kind that a process holds, or asks for. -/
structure Ids where
  real : Nat
  effective : Nat
  saved : Nat

def Ids.toList (ids : Ids) : List Nat := [ids.real, ids.effective, ids.saved]

def setIds (rules : IdRules) (privileged : Prop) [Decidable privileged] (asked held : Ids) : Except Errno Ids :=
  if ¬asked.toList.all fun id => id = unchanged || rules.isMapped id then .error .einval
  else if ∀ id ∈ asked.toList, MayRequest privileged held.toList id then
    .ok ⟨requested asked.real held.real, requested asked.effective held.effective, requested asked.saved held.saved⟩
  else .error .eperm

def setGroupIds (rules : IdRules) (real effective saved : Nat) (c : Credentials) : Except Errno Credentials := do
  let ids ← setIds rules c.IsPrivileged ⟨real, effective, saved⟩ ⟨c.realGroup, c.effectiveGroup, c.savedGroup⟩
  return { c with realGroup := ids.real, effectiveGroup := ids.effective, savedGroup := ids.saved }

def setUserIds (rules : IdRules) (real effective saved : Nat) (c : Credentials) : Except Errno Credentials := do
  let ids ← setIds rules c.IsPrivileged ⟨real, effective, saved⟩ ⟨c.realUser, c.effectiveUser, c.savedUser⟩
  return { c with realUser := ids.real, effectiveUser := ids.effective, savedUser := ids.saved }

/-- Whether the process acts for the identity, as far as real and effective ids go. -/
def ActsAs (c : Credentials) (id : Identity) : Prop :=
  c.realUser = id.uid ∧ c.effectiveUser = id.uid ∧ c.realGroup = id.gid ∧ c.effectiveGroup = id.gid

instance (c : Credentials) (id : Identity) : Decidable (c.ActsAs id) := by
  unfold ActsAs
  infer_instance

/-- The answer whether the change has had its effect. -/
def verify (id : Identity) (c : Credentials) : Except Errno Unit :=
  if c.ActsAs id then .ok () else .error .eperm

/-- Becomes the identity for good. A process that is not privileged cannot become anyone else. What has been changed
before a step fails stays changed. -/
def dropTo (rules : IdRules) (id : Identity) (c : Credentials) : Except Errno Unit × Credentials :=
  if ¬c.IsPrivileged then (verify id c, c)
  else
    match setGroups rules id.groups c with
    | .error e => (.error e, c)
    | .ok c₁ =>
      match setGroupIds rules id.gid id.gid id.gid c₁ with
      | .error e => (.error e, c₁)
      | .ok c₂ =>
        match setUserIds rules id.uid id.uid id.uid c₂ with
        | .error e => (.error e, c₂)
        | .ok c₃ => (verify id c₃, c₃)

end Credentials
end BucketMount
