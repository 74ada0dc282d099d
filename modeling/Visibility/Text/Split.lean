set_option autoImplicit false
set_option relaxedAutoImplicit false

/-!
Cutting lists of characters at separators.
-/

namespace Visibility.Text

def afterLead? : List Char → List Char → Option (List Char)
  | [], cs => some cs
  | _ :: _, [] => none
  | l :: lead, c :: cs => if l = c then afterLead? lead cs else none

def splitFirst? (sep : List Char) : List Char → Option (List Char × List Char)
  | [] => (afterLead? sep []).map fun after => ([], after)
  | c :: cs =>
    match afterLead? sep (c :: cs) with
    | some after => some ([], after)
    | none => (splitFirst? sep cs).map fun (before, after) => (c :: before, after)

def splitLast? (sep : List Char) : List Char → Option (List Char × List Char)
  | [] => (afterLead? sep []).map fun after => ([], after)
  | c :: cs =>
    match splitLast? sep cs with
    | some (before, after) => some (c :: before, after)
    | none => (afterLead? sep (c :: cs)).map fun after => ([], after)

/-- The parts between the characters that `isSep` holds for; always one more than there are such
characters. -/
def splitAt (isSep : Char → Bool) : List Char → List (List Char)
  | [] => [[]]
  | c :: cs =>
    if isSep c then [] :: splitAt isSep cs
    else
      match splitAt isSep cs with
      | [] => [[c]]
      | part :: parts => (c :: part) :: parts

def dropLeads (sep : List Char) (cs : List Char) : List Char :=
  match sep with
  | [] => cs
  | s :: seps =>
    match afterLead? (s :: seps) cs with
    | some rest =>
      if rest.length < cs.length then dropLeads (s :: seps) rest else cs
    | none => cs
termination_by cs.length

/-- Replaces each occurrence of a separator that is not part of an earlier one; `skip` characters of
the last occurrence are still to be dropped. -/
def replaceFrom (sep by_ : List Char) : Nat → List Char → List Char
  | _, [] => []
  | skip + 1, _ :: cs => replaceFrom sep by_ skip cs
  | 0, c :: cs =>
    if (afterLead? sep (c :: cs)).isSome then by_ ++ replaceFrom sep by_ (sep.length - 1) cs
    else c :: replaceFrom sep by_ 0 cs

def replace (sep by_ : List Char) (cs : List Char) : List Char :=
  replaceFrom sep by_ 0 cs

def hasPart (part cs : List Char) : Bool :=
  (splitFirst? part cs).isSome

def cutLead? (lead text : String) : Option String :=
  (afterLead? lead.toList text.toList).map String.ofList

def cutFirst? (sep text : String) : Option (String × String) :=
  (splitFirst? sep.toList text.toList).map fun (before, after) =>
    (String.ofList before, String.ofList after)

def cutLast? (sep text : String) : Option (String × String) :=
  (splitLast? sep.toList text.toList).map fun (before, after) =>
    (String.ofList before, String.ofList after)

def startsWith (lead text : String) : Bool :=
  (afterLead? lead.toList text.toList).isSome

end Visibility.Text
