import BucketMount.Text.Basic

/-!
# The job user

A job runs as a user and a group. The account of the user, where there is one, adds a home directory and further
groups.
-/

namespace BucketMount

structure Account where
  home : Bytes
  /-- The groups that list the user as a member. -/
  memberOf : List Nat
deriving DecidableEq, Repr

structure Identity where
  uid : Nat
  gid : Nat
  home : Option Bytes
  groups : List Nat
deriving DecidableEq, Repr

namespace Identity

/-- The identity of a user and group, given the account of the user. A user without an account has no home and is in
no other group. -/
def resolve (account : Option Account) (uid gid : Nat) : Identity where
  uid := uid
  gid := gid
  home := account.map Account.home
  groups := match account with
    | some a => gid :: a.memberOf.filter (· ≠ gid)
    | none => [gid]

end Identity
end BucketMount
