import Visibility.Expression.Token

set_option autoImplicit false
set_option relaxedAutoImplicit false

/-!
Scanning a text that goes on.

No token extends over a boundary, such as a parenthesis or a blank.  The main statement is that the
tokens of a text which goes on at a boundary are those of the text, followed by those of the rest.
-/

namespace Visibility

namespace Token

/-- Whether a character ends every token before it. -/
def isBoundary (c : Char) : Bool :=
  !(isNameChar c || c = '.' || c = '=' || c = '&' || c = '|')

private theorem takeWhile_append_stop {α : Type} {p : α → Bool} {a : α} (stop : p a = Bool.false)
    (xs more : List α) : (xs ++ a :: more).takeWhile p = xs.takeWhile p := by
  induction xs with
  | nil => simp [stop]
  | cons x xs ih => by_cases here : p x <;> simp [here, ih]

private theorem dropWhile_append_stop {α : Type} {p : α → Bool} {a : α} (stop : p a = Bool.false)
    (xs more : List α) : (xs ++ a :: more).dropWhile p = xs.dropWhile p ++ a :: more := by
  induction xs with
  | nil => simp [stop]
  | cons x xs ih => by_cases here : p x <;> simp [here, ih]

private theorem append_ne_cons {a b : Char} (differ : b ≠ a) {cs : List Char}
    (absent : ∀ more, cs = a :: more → False) (rest more : List Char) :
    cs ++ b :: rest = a :: more → False := by
  intro same
  cases cs with
  | nil =>
    simp only [List.nil_append, List.cons.injEq] at same
    exact differ same.1
  | cons c cs =>
    simp only [List.cons_append, List.cons.injEq] at same
    exact absent cs (by rw [same.1])

private theorem length_decimals_lt {rest : List Char} (fraction : ¬ (decimals rest).isEmpty) :
    (decimals rest).length + 1 ≤ rest.length := by
  unfold decimals at fraction ⊢
  split
  · next rest =>
    have := (List.takeWhile_prefix (p := Char.isDigit) (l := rest)).length_le
    simp only [List.length_cons]
    omega
  · simp at fraction

theorem quotedTail_append {quote : Char} {cs text after : List Char}
    (found : quotedTail quote cs = some (text, after)) (more : List Char) :
    quotedTail quote (cs ++ more) = some (text, after ++ more) := by
  fun_induction quotedTail quote cs generalizing text after with
  | case1 => contradiction
  | case2 rest =>
    cases found
    rw [List.cons_append, quotedTail.eq_def]
    simp
  | case3 c => contradiction
  | case4 e rest other ih =>
    simp only [Option.map_eq_some_iff, Prod.exists, Prod.mk.injEq] at found
    obtain ⟨inner, _, tail, rfl, rfl⟩ := found
    simp [quotedTail, other, ih tail]
  | case5 c rest other plain ih =>
    simp only [Option.map_eq_some_iff, Prod.exists, Prod.mk.injEq] at found
    obtain ⟨inner, _, tail, rfl, rfl⟩ := found
    rw [List.cons_append, quotedTail.eq_def]
    simp [other, plain, ih tail]

def symbols : List (String × Token) :=
  [("===", comparison .identical), ("!==", comparison .notIdentical), ("==", comparison .eq),
    ("!=", comparison .notEq), ("<=", comparison .le), (">=", comparison .ge), ("&&", and),
    ("||", or), ("<", comparison .lt), (">", comparison .gt), ("!", bang), ("-", minus), (".", dot),
    (",", comma), ("(", openParen), (")", closeParen), ("[", openBracket), ("]", closeBracket)]

/-- What a token is read from, up to what stands after it. -/
inductive ReadFrom (after : List Char) : List Char → Token → Prop
  | symbol {text : String} {token : Token} :
      (text, token) ∈ symbols → ReadFrom after (text.toList ++ after) token
  | string {quote : Char} {inner text : List Char} :
      quotedTail quote inner = some (text, after) →
      ReadFrom after (quote :: inner) (string (String.ofList text))
  | number {cs : List Char} {token : Token} :
      number? cs = some (token, after) → ReadFrom after cs token
  | word {first : Char} {letters : List Char} :
      isNameStart first → (∀ c ∈ letters, isNameChar c) →
      ReadFrom after (first :: letters ++ after) (ofWord (String.ofList (first :: letters)))

private theorem of_ite {α : Type} {condition goal : Prop} [Decidable condition] {first second : α}
    {result : α} (here : condition → first = result → goal) (other : second = result → goal) :
    (if condition then first else second) = result → goal := by
  split
  · next holds => exact here holds
  · exact other

theorem readFrom_of_next? {cs after : List Char} {token : Token}
    (found : next? cs = some (token, after)) : ReadFrom after cs token := by
  have listed {text : String} {read : Token} {rest : List Char} (symbol : (text, read) ∈ symbols)
      (same : some (read, rest) = some (token, after)) :
      ReadFrom after (text.toList ++ rest) token := by
    cases same
    exact .symbol symbol
  unfold next? at found
  split at found
  · exact listed (by simp [symbols] : ("===", _) ∈ symbols) found
  · exact listed (by simp [symbols] : ("!==", _) ∈ symbols) found
  · exact listed (by simp [symbols] : ("==", _) ∈ symbols) found
  · exact listed (by simp [symbols] : ("!=", _) ∈ symbols) found
  · exact listed (by simp [symbols] : ("<=", _) ∈ symbols) found
  · exact listed (by simp [symbols] : (">=", _) ∈ symbols) found
  · exact listed (by simp [symbols] : ("&&", _) ∈ symbols) found
  · exact listed (by simp [symbols] : ("||", _) ∈ symbols) found
  · contradiction
  · next c rest _ _ _ _ _ _ _ _ =>
    have single {char : Char} {read : Token} (symbol : (String.singleton char, read) ∈ symbols)
        (here : c = char) (same : some (read, rest) = some (token, after)) :
        ReadFrom after (c :: rest) token := by
      subst here
      have read := listed symbol same
      rwa [String.toList_singleton, List.singleton_append] at read
    refine of_ite ?_ (of_ite ?_ (of_ite ?_ (of_ite ?_ (of_ite ?_ (of_ite ?_ (of_ite ?_ (of_ite ?_
      (of_ite ?_ (of_ite ?_ (of_ite ?_ (of_ite ?_ (of_ite ?_ ?_)))))))))))) found
    -- the ten tokens of one character
    iterate 10 exact single (by simp [symbols])
    · intro _ found
      obtain ⟨⟨text, _⟩, tail, same⟩ := Option.map_eq_some_iff.mp found
      cases same
      exact .string tail
    · exact fun _ found => .number found
    · intro start found
      cases found
      have letters : ∀ c ∈ rest.takeWhile isNameChar, isNameChar c :=
        List.all_eq_true.mp List.all_takeWhile
      have read : ReadFrom (rest.dropWhile isNameChar) _ _ := .word start letters
      rwa [List.cons_append, List.takeWhile_append_dropWhile] at read
    · intro found
      contradiction

theorem scan_of_next? {first : Char} {cs after : List Char} {token : Token}
    (found : next? (first :: cs) = some (token, after)) (solid : ¬ isBlank first)
    (shorter : after.length < (first :: cs).length) :
    scan (first :: cs) = (scan after).map (token :: ·) := by
  rw [scan.eq_2, if_neg solid, found]
  exact dif_pos shorter

private theorem ite_append {condition : Prop} [Decidable condition]
    {first second first' second' : Option (Token × List Char)} {read read' : Token × List Char}
    (here : first = some read → first' = some read')
    (other : second = some read → second' = some read') :
    (if condition then first else second) = some read →
      (if condition then first' else second') = some read' := by
  split
  · exact here
  · exact other

private theorem single_append {single token : Token} {rest after more : List Char} :
    some (single, rest) = some (token, after) →
      some (single, rest ++ more) = some (token, after ++ more) := by
  rintro ⟨⟩
  rfl

section Boundary

variable {c : Char} (boundary : isBoundary c)
include boundary

theorem isNameChar_boundary : isNameChar c = Bool.false := by
  simp only [isBoundary, Bool.not_eq_eq_eq_not, Bool.not_true, Bool.or_eq_false_iff] at boundary
  exact boundary.1.1.1.1

theorem isDigit_boundary : c.isDigit = Bool.false := by
  have other := isNameChar_boundary boundary
  simp only [isNameChar, Char.isAlphanum, Bool.or_eq_false_iff] at other
  exact other.1.2

theorem boundary_ne : c ≠ '.' ∧ c ≠ '=' ∧ c ≠ '&' ∧ c ≠ '|' := by
  simp only [isBoundary, Bool.not_eq_eq_eq_not, Bool.not_true, Bool.or_eq_false_iff,
    decide_eq_false_iff_not] at boundary
  exact ⟨boundary.1.1.1.2, boundary.1.1.2, boundary.1.2, boundary.2⟩

private theorem decimals_append (cs more : List Char) :
    decimals (cs ++ c :: more) = decimals cs := by
  cases cs with
  | nil => exact decimals.eq_2 _ fun rest same => (boundary_ne boundary).1 (List.cons.inj same).1
  | cons d cs =>
    by_cases point : d = '.'
    · subst point
      exact takeWhile_append_stop (isDigit_boundary boundary) cs more
    · rw [decimals.eq_2 (d :: cs) fun rest same => point (List.cons.inj same).1]
      exact decimals.eq_2 _ fun rest same => point (List.cons.inj same).1

private theorem number?_append {cs after : List Char} {token : Token}
    (found : number? cs = some (token, after)) (more : List Char) :
    number? (cs ++ c :: more) = some (token, after ++ c :: more) := by
  have stop := isDigit_boundary boundary
  simp only [number?, takeWhile_append_stop stop, dropWhile_append_stop stop,
    decimals_append boundary] at found ⊢
  generalize cs.dropWhile Char.isDigit = rest at found ⊢
  split at found
  · next whole =>
    split at found
    · next small =>
      cases found
      simp [whole, small]
    · contradiction
  · next fraction =>
    split at found
    · next finite =>
      cases found
      have within : (decimals rest).length + 1 ≤ rest.length := length_decimals_lt fraction
      simp [fraction, finite, List.drop_append_of_le_length within]
    · contradiction

theorem next?_append {cs after : List Char} {token : Token}
    (found : next? cs = some (token, after)) (more : List Char) :
    next? (cs ++ c :: more) = some (token, after ++ c :: more) := by
  obtain ⟨-, notEq, notAnd, notOr⟩ := boundary_ne boundary
  unfold next? at found
  split at found
  · cases found; rfl
  · cases found; rfl
  · next rest single =>
    cases found
    exact next?.eq_3 _ (append_ne_cons notEq single more)
  · next rest single =>
    cases found
    exact next?.eq_4 _ (append_ne_cons notEq single more)
  · cases found; rfl
  · cases found; rfl
  · cases found; rfl
  · cases found; rfl
  · contradiction
  · next first rest _ _ equal bang less greater and or =>
    -- none of the longer operators arises, as none goes on with a boundary
    rw [List.cons_append, next?.eq_10 first (rest ++ c :: more)
      (fun later same => append_ne_cons notEq (equal · same) more ('=' :: later))
      (fun later same => append_ne_cons notEq (bang · same) more ('=' :: later))
      (fun later same => append_ne_cons notEq (equal · same) more later)
      (fun later same => append_ne_cons notEq (bang · same) more later)
      (fun later same => append_ne_cons notEq (less · same) more later)
      (fun later same => append_ne_cons notEq (greater · same) more later)
      (fun later same => append_ne_cons notAnd (and · same) more later)
      (fun later same => append_ne_cons notOr (or · same) more later)]
    clear equal bang less greater and or
    refine ite_append ?_ (ite_append ?_ (ite_append ?_ (ite_append ?_ (ite_append ?_ (ite_append ?_
      (ite_append ?_ (ite_append ?_ (ite_append ?_ (ite_append ?_ (ite_append ?_ (ite_append ?_
      (ite_append ?_ ?_)))))))))))) found
    -- the ten tokens of one character
    iterate 10 exact single_append
    · intro found
      obtain ⟨⟨inner, after⟩, tail, same⟩ := Option.map_eq_some_iff.mp found
      cases same
      rw [quotedTail_append tail]
      rfl
    · exact fun found => number?_append boundary found more
    · intro found
      cases found
      have name := isNameChar_boundary boundary
      rw [takeWhile_append_stop name, dropWhile_append_stop name]
    · intro found
      contradiction

/-- The tokens of a text that goes on at a boundary are those of the text and those of the rest. -/
theorem scan_append {cs : List Char} {ts : List Token} (scanned : scan cs = some ts)
    (more : List Char) : scan (cs ++ c :: more) = (scan (c :: more)).map (ts ++ ·) := by
  fun_induction scan cs generalizing ts with
  | case1 =>
    cases scanned
    simp
  | case2 d rest blank ih =>
    rw [List.cons_append, scan.eq_2, if_pos blank]
    exact ih scanned
  | case3 => contradiction
  | case4 d rest solid token after found shorter ih =>
    simp only [Option.map_eq_some_iff] at scanned
    obtain ⟨others, scanned, rfl⟩ := scanned
    have again : next? (d :: (rest ++ c :: more)) = some (token, after ++ c :: more) :=
      next?_append boundary found more
    have going : (after ++ c :: more).length < (d :: (rest ++ c :: more)).length := by
      simp only [List.length_append, List.length_cons] at shorter ⊢
      omega
    rw [List.cons_append, scan_of_next? again solid going, ih scanned, Option.map_map]
    rfl
  | case5 => contradiction

end Boundary

end Token

end Visibility
