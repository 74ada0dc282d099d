import Visibility.Proofs.Text.Split
import Visibility.Request

set_option autoImplicit false
set_option relaxedAutoImplicit false

/-!
Which part of an address a request takes for its path.

The path is looked for behind the first mark of a scheme, wherever the mark stands.  The main statement
is that an address with a scheme and an authority gives its path with its query, and that a text is taken
as a whole exactly where it has no such mark.  A path whose query holds another address has one.
-/

namespace Visibility

/-- An address with a scheme and an authority before its path. -/
structure Address where
  scheme : String
  authority : String
  /-- The path with all that follows it. -/
  path : String
  plainScheme : ':' ∉ scheme.toList ∧ '/' ∉ scheme.toList
  plainAuthority : '/' ∉ authority.toList ∧ '?' ∉ authority.toList ∧ '#' ∉ authority.toList
  rooted : Text.startsWith "/" path = true

def Address.text (address : Address) : String :=
  address.scheme ++ "://" ++ address.authority ++ address.path

namespace Request

def MarksScheme (text : String) : Prop :=
  "://".toList <:+: text.toList

theorem pathOf_append {lead authority path : String} (plainLead : ':' ∉ lead.toList)
    (plainAuthority : '/' ∉ authority.toList) (rooted : Text.startsWith "/" path = true) :
    pathOf (lead ++ "://" ++ authority ++ path) = path := by
  obtain ⟨rest, begins⟩ := Text.startsWith_iff.mp rooted
  have spelled : path.toList = '/' :: rest := begins
  have mark : "://".toList = ':' :: ['/', '/'] := rfl
  have whole : (lead ++ "://" ++ authority ++ path).toList =
      lead.toList ++ (':' :: ['/', '/'] ++ (authority ++ path).toList) := by simp
  have cut : Text.cutFirst? "://" (lead ++ "://" ++ authority ++ path) =
      some (lead, authority ++ path) := by
    rw [Text.cutFirst?, whole, mark, Text.splitFirst?_append_cons plainLead]
    simp only [Option.map_some, String.ofList_toList]
  have skipped : ∀ c ∈ authority.toList, decide (c ≠ '/') = true := by
    intro c present
    exact decide_eq_true fun same => plainAuthority (same ▸ present)
  have dropped : (authority ++ path).toList.dropWhile (· ≠ '/') = '/' :: rest := by
    rw [String.toList_append, spelled, List.dropWhile_append_of_pos skipped]
    rfl
  simp only [pathOf, cut, dropped]
  rw [← spelled, String.ofList_toList]

theorem pathOf_of_not_marksScheme {uri : String} (unmarked : ¬ MarksScheme uri) :
    pathOf uri = uri := by
  have uncut : Text.splitFirst? "://".toList uri.toList = none := by
    rw [← Option.not_isSome_iff_eq_none]
    exact fun cut => unmarked (Text.hasPart_iff.mp cut)
  rw [pathOf, Text.cutFirst?, uncut]
  rfl

theorem length_pathOf_lt {uri : String} (marked : MarksScheme uri) :
    (pathOf uri).toList.length < uri.toList.length := by
  obtain ⟨⟨before, after⟩, split⟩ := Option.isSome_iff_exists.mp (Text.hasPart_iff.mpr marked)
  have spelled : uri.toList = before ++ ("://".toList ++ after) :=
    Text.eq_append_of_splitFirst? split
  have cut : Text.cutFirst? "://" uri = some (String.ofList before, String.ofList after) := by
    rw [Text.cutFirst?, split]
    rfl
  have room : after.length + 3 ≤ uri.toList.length := by
    have mark : "://".toList.length = 3 := rfl
    rw [spelled, List.length_append, List.length_append, mark]
    omega
  have shorter : (after.dropWhile (· ≠ '/')).length ≤ after.length :=
    (List.dropWhile_sublist _).length_le
  simp only [pathOf, cut, String.toList_ofList]
  split
  · have slash : "/".toList.length = 1 := rfl
    omega
  · rw [String.toList_ofList]
    omega

theorem pathOf_eq_self_iff {uri : String} : pathOf uri = uri ↔ ¬ MarksScheme uri := by
  constructor
  · intro whole marked
    have shorter := length_pathOf_lt marked
    rw [whole] at shorter
    exact Nat.lt_irrefl _ shorter
  · exact pathOf_of_not_marksScheme

theorem pathOf_append_text {lead : String} (plainLead : ':' ∉ lead.toList) (address : Address) :
    pathOf (lead ++ address.text) = address.path := by
  have plainStart : ':' ∉ (lead ++ address.scheme).toList := by
    rw [String.toList_append, List.mem_append]
    exact not_or.mpr ⟨plainLead, address.plainScheme.1⟩
  have spelled : lead ++ address.text =
      lead ++ address.scheme ++ "://" ++ address.authority ++ address.path := by
    simp only [Address.text, String.append_assoc]
  rw [spelled]
  exact pathOf_append plainStart address.plainAuthority.1 address.rooted

/-- A request by an address with a scheme and an authority has the path of the address.  A request by any
text has the text as a whole exactly where the text has no mark of a scheme. -/
theorem requestUri_ofUri (method : String) :
    (∀ address : Address, (ofUri method address.text).requestUri = address.path) ∧
      ∀ uri, (ofUri method uri).requestUri = uri ↔ ¬ MarksScheme uri := by
  refine ⟨fun address => ?_, fun uri => pathOf_eq_self_iff⟩
  have plainStart : ':' ∉ "".toList := List.not_mem_nil
  have found := pathOf_append_text plainStart address
  rwa [String.empty_append] at found

def homeAddress : Address where
  scheme := "https"
  authority := "shop.example"
  path := "/home"
  plainScheme := by decide
  plainAuthority := by decide
  rooted := by decide

/-- A path does not stay whole where its query says to which address to go on. -/
theorem not_forall_requestUri_ofUri :
    ¬ ∀ method path, Text.startsWith "/" path = true →
      (ofUri method path).requestUri = path := by
  intro whole
  have plainLead : ':' ∉ "/login?next=".toList := by decide
  have found : (ofUri "GET" ("/login?next=" ++ homeAddress.text)).requestUri = "/home" :=
    pathOf_append_text plainLead homeAddress
  have kept := whole "GET" ("/login?next=" ++ homeAddress.text) (by decide)
  exact absurd (found.symm.trans kept) (by decide)

end Request

end Visibility
