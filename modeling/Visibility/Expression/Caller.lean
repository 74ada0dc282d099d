import Visibility.Json.Basic

set_option autoImplicit false
set_option relaxedAutoImplicit false

/-!
Callers: who asks, and what they are granted.
-/

namespace Visibility

structure Caller where
  user : Option Json
  roles : List String
  authenticated : Bool
  /-- Whether the caller holds a permission, possibly against a subject. -/
  grants : String → Option Json → Bool

structure Question where
  permission : String
  subject : Option Json

/-- One call that is made to the caller: whether a permission is held, or for the user, for the
roles, for whether there is an authentication at all. -/
inductive Consultation where
  | permission (question : Question)
  | user
  | roles
  | authenticated

def Consultation.question? : Consultation → Option Question
  | permission question => some question
  | _ => none

/-- A caller who is known by a list of roles. -/
structure RoleHolder where
  user : Option Json := none
  roles : List String := []

namespace RoleHolder

def anonymous : RoleHolder := {}

def withRole (holder : RoleHolder) (role : String) : RoleHolder :=
  { holder with roles := holder.roles ++ [role] }

def authenticationPermissions : List String :=
  ["IS_AUTHENTICATED", "IS_AUTHENTICATED_FULLY", "IS_AUTHENTICATED_REMEMBERED"]

def publicPermissions : List String :=
  ["PUBLIC_ACCESS", "IS_AUTHENTICATED_ANONYMOUSLY"]

def grants (holder : RoleHolder) (permission : String) : Bool :=
  if permission ∈ authenticationPermissions then holder.user.isSome
  else if permission ∈ publicPermissions then true
  else permission ∈ holder.roles

def toCaller (holder : RoleHolder) : Caller where
  user := holder.user
  roles := holder.roles
  authenticated := holder.user.isSome
  grants := fun permission _ => holder.grants permission

end RoleHolder

end Visibility
