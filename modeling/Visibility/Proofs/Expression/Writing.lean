import Visibility.Proofs.Expression.Scanning

set_option autoImplicit false
set_option relaxedAutoImplicit false

/-!
How tokens are written, and that the scanner reads them back.

Tokens are written one after another, with a blank between two of them except around brackets, dots
and signs.  The main statement is that the scanner finds exactly the tokens that were written.
-/

namespace Visibility

inductive Quote where
  | single
  | double
deriving DecidableEq, Repr

def Quote.char : Quote → Char
  | single => '\''
  | double => '"'

namespace Token

def isName (word : String) : Bool :=
  match word.toList with
  | [] => Bool.false
  | first :: letters => isNameStart first && letters.all isNameChar && !reservedWords.contains word

def isSound : Token → Bool
  | name word => isName word
  | int value => value < 0x8000000000000000
  | comparison .isIn | comparison .notIn => Bool.false
  | _ => Bool.true

def isFloat : Token → Bool
  | float _ => Bool.true
  | _ => Bool.false

def escaped (quote : Quote) (c : Char) : List Char :=
  if c = '\\' ∨ c = quote.char then ['\\', c] else [c]

def written (quote : Quote) : Token → List Char
  | name word => word.toList
  | string text => quote.char :: (text.toList.flatMap (escaped quote) ++ [quote.char])
  | int value => Nat.toDigits 10 value
  | float value => (Decimal.text .standard value).toList
  | true => "true".toList
  | false => "false".toList
  | null => "null".toList
  | or => "or".toList
  | and => "and".toList
  | not => "not".toList
  | bang => "!".toList
  | minus => "-".toList
  | isIn => "in".toList
  | comparison op => op.text.toList
  | dot => ".".toList
  | comma => ",".toList
  | openParen => "(".toList
  | closeParen => ")".toList
  | openBracket => "[".toList
  | closeBracket => "]".toList

/-- Whether a token is written right behind another one. -/
def joins : Token → Token → Bool
  | openParen, _ | openBracket, _ | minus, _ | dot, name _ | name _, openParen => Bool.true
  | _, closeParen | _, closeBracket | _, comma | _, dot => Bool.true
  | _, _ => Bool.false

def layout (quote : Quote) : List Token → List Char
  | [] => []
  | [token] => token.written quote
  | token :: next :: rest =>
    token.written quote ++ ((if joins token next then [] else [' ']) ++ layout quote (next :: rest))

/-- Whether no token extends over the start of a text. -/
def isBreak : List Char → Bool
  | [] => Bool.true
  | '.' :: rest => !(rest.head?.any Char.isDigit)
  | c :: _ => isBoundary c

/-- Whether a token ends by itself, whatever comes after it. -/
def endsItself : Token → Bool
  | openParen | openBracket | minus | dot => Bool.true
  | _ => Bool.false

private theorem span_append_stop {p : Char → Bool} {cs rest : List Char} (all : ∀ c ∈ cs, p c)
    (stop : ∀ c more, rest = c :: more → p c = Bool.false) :
    (cs ++ rest).takeWhile p = cs ∧ (cs ++ rest).dropWhile p = rest := by
  rw [List.takeWhile_append_of_pos all, List.dropWhile_append_of_pos all]
  cases rest with
  | nil => simp
  | cons c more => simp [stop c more rfl]

section Break

variable {rest : List Char} (ended : isBreak rest)
include ended

private theorem isNameChar_of_isBreak {c : Char} {more : List Char} (starts : rest = c :: more) :
    isNameChar c = Bool.false := by
  subst starts
  unfold isBreak at ended
  split at ended
  · contradiction
  · next same =>
    cases same
    rfl
  · next same =>
    cases same
    exact isNameChar_boundary ended

private theorem isDigit_of_isBreak {c : Char} {more : List Char} (starts : rest = c :: more) :
    c.isDigit = Bool.false := by
  have other := isNameChar_of_isBreak ended starts
  simp only [isNameChar, Char.isAlphanum, Bool.or_eq_false_iff] at other
  exact other.1.2

private theorem ne_of_isBreak (more : List Char) : rest ≠ '=' :: more := by
  rintro rfl
  contradiction

private theorem decimals_of_isBreak : decimals rest = [] := by
  unfold decimals
  split
  · next more =>
    cases more with
    | nil => rfl
    | cons c more =>
      have digit : c.isDigit = Bool.false := by simpa [isBreak] using ended
      simp [digit]
  · rfl

end Break

theorem natOfDigits_toDigits (value : Nat) : natOfDigits (Nat.toDigits 10 value) = value :=
  Nat.ofDigitChars_ten_toDigits

theorem quotedTail_escaped (quote : Quote) (text rest : List Char) :
    quotedTail quote.char (text.flatMap (escaped quote) ++ quote.char :: rest) =
      some (text, rest) := by
  induction text with
  | nil => exact (quotedTail.eq_def _ _).trans (if_pos rfl)
  | cons c text ih =>
    have quoteNotBackslash : '\\' ≠ quote.char := by cases quote <;> decide
    rw [List.flatMap_cons, List.append_assoc, escaped]
    split
    · next special =>
      have itself : unescape c = c := by
        rcases special with rfl | rfl
        · rfl
        · cases quote <;> rfl
      simp [quotedTail, quoteNotBackslash, itself, ih]
    · next plain =>
      rw [not_or] at plain
      rw [List.singleton_append, quotedTail.eq_def]
      simp [plain, ih]

theorem next?_quoted (quote : Quote) (text : String) (rest : List Char) :
    next? ((string text).written quote ++ rest) = some (string text, rest) := by
  have opening (cs : List Char) : next? (quote.char :: cs) = (quotedTail quote.char cs).map
      fun found => (string (String.ofList found.1), found.2) := by
    cases quote <;> rfl
  rw [written, List.cons_append, List.append_assoc, List.singleton_append, opening,
    quotedTail_escaped, Option.map_some]
  dsimp only
  rw [String.ofList_toList]

def symbolStarts : List Char :=
  ['=', '!', '<', '>', '&', '|', '-', '.', ',', '(', ')', '[', ']', '\'', '"']

private theorem next?_of_plain {c : Char} (cs : List Char) (plain : c ∉ symbolStarts) :
    next? (c :: cs) =
      if c.isDigit then number? (c :: cs)
      else if isNameStart c then
        some (ofWord (String.ofList (c :: cs.takeWhile isNameChar)), cs.dropWhile isNameChar)
      else none := by
  simp only [symbolStarts, List.mem_cons, List.not_mem_nil, or_false, not_or] at plain
  obtain ⟨equal, bang, less, greater, and, or, minus, dot, comma, openParen, closeParen,
    openBracket, closeBracket, single, double⟩ := plain
  rw [next?.eq_10]
  · simp [bang, less, greater, minus, dot, comma, openParen, closeParen, openBracket, closeBracket,
      single, double]
  all_goals
    intro more same
    simp_all

theorem isDigit_of_isNameStart {c : Char} (start : isNameStart c) : c.isDigit = Bool.false := by
  rw [Bool.eq_false_iff]
  intro digit
  have most : c.val ≤ '9'.val := of_decide_eq_true (Bool.and_eq_true_iff.mp digit).2
  rcases Bool.or_eq_true_iff.mp start with letter | underscore
  · rcases Bool.or_eq_true_iff.mp letter with upper | lower
    · have least : 'A'.val ≤ c.val := (of_decide_eq_true upper).1
      exact absurd (UInt32.le_trans least most) (by decide)
    · have least : 'a'.val ≤ c.val := of_decide_eq_true (Bool.and_eq_true_iff.mp lower).1
      exact absurd (UInt32.le_trans least most) (by decide)
  · cases of_decide_eq_true underscore
    contradiction

theorem next?_word {first : Char} {letters rest : List Char} (start : isNameStart first)
    (named : letters.all isNameChar) (ended : isBreak rest) :
    next? (first :: letters ++ rest) = some (ofWord (String.ofList (first :: letters)), rest) := by
  obtain ⟨taken, dropped⟩ := span_append_stop (List.all_eq_true.mp named) fun _ _ =>
    isNameChar_of_isBreak ended
  have plain : first ∉ symbolStarts := by
    have none : symbolStarts.all (!isNameStart ·) := by decide
    intro symbol
    simpa [start] using List.all_eq_true.mp none first symbol
  have noDigit := isDigit_of_isNameStart start
  rw [List.cons_append, next?_of_plain _ plain, noDigit, taken, dropped]
  simp [start]

theorem next?_int {value : Nat} {rest : List Char} (small : value < 0x8000000000000000)
    (ended : isBreak rest) : next? (Nat.toDigits 10 value ++ rest) = some (int value, rest) := by
  have digits : ∀ c ∈ Nat.toDigits 10 value, c.isDigit := fun c =>
    Nat.isDigit_of_mem_toDigits (b := 10) (by decide) (by decide)
  obtain ⟨taken, dropped⟩ := span_append_stop digits fun _ _ => isDigit_of_isBreak ended
  have read : number? (Nat.toDigits 10 value ++ rest) = some (int value, rest) := by
    simp [number?, taken, dropped, decimals_of_isBreak ended, natOfDigits_toDigits, small]
  obtain ⟨first, others, same⟩ :=
    List.exists_cons_of_ne_nil (Nat.toDigits_ne_nil (b := 10) (n := value))
  rw [same] at digits read ⊢
  have plain : first ∉ symbolStarts := by
    have none : symbolStarts.all (!·.isDigit) := by decide
    intro symbol
    simpa [digits first List.mem_cons_self] using List.all_eq_true.mp none first symbol
  rw [List.cons_append, next?_of_plain _ plain, if_pos (digits first List.mem_cons_self)]
  exact read

theorem exists_of_isName {word : String} (named : isName word) :
    ∃ first letters, word.toList = first :: letters ∧ isNameStart first ∧
      letters.all isNameChar ∧ word ∉ reservedWords := by
  unfold isName at named
  split at named
  · contradiction
  · next first letters same =>
    simp only [Bool.and_eq_true, Bool.not_eq_true', List.contains_eq_mem,
      decide_eq_false_iff_not] at named
    exact ⟨first, letters, same, named.1.1, named.1.2, named.2⟩

theorem ofWord_of_not_mem_reservedWords {word : String} (free : word ∉ reservedWords) :
    ofWord word = name word := by
  simp only [reservedWords, List.mem_cons, List.not_mem_nil, or_false, not_or] at free
  unfold ofWord
  split <;> simp_all

/-- A token that ends by itself or at a break is read back. -/
theorem next?_written (quote : Quote) {token : Token} {rest : List Char} (sound : token.isSound)
    (exact : ¬ token.isFloat) (ended : token.endsItself ∨ isBreak rest) :
    next? (token.written quote ++ rest) = some (token, rest) := by
  cases token with
  | name text =>
    obtain ⟨first, letters, same, start, named, free⟩ := exists_of_isName sound
    have spelled : String.ofList (first :: letters) = text := by rw [← same, String.ofList_toList]
    rw [written, same, next?_word start named (ended.resolve_left Bool.false_ne_true), spelled,
      ofWord_of_not_mem_reservedWords free]
  | string text => exact next?_quoted quote text rest
  | int value => exact next?_int (of_decide_eq_true sound) (ended.resolve_left Bool.false_ne_true)
  | float => exact absurd rfl exact
  | «true» => exact next?_word (by decide) (by decide) (ended.resolve_left Bool.false_ne_true)
  | «false» => exact next?_word (by decide) (by decide) (ended.resolve_left Bool.false_ne_true)
  | null => exact next?_word (by decide) (by decide) (ended.resolve_left Bool.false_ne_true)
  | or => exact next?_word (by decide) (by decide) (ended.resolve_left Bool.false_ne_true)
  | and => exact next?_word (by decide) (by decide) (ended.resolve_left Bool.false_ne_true)
  | not => exact next?_word (by decide) (by decide) (ended.resolve_left Bool.false_ne_true)
  | isIn => exact next?_word (by decide) (by decide) (ended.resolve_left Bool.false_ne_true)
  | minus | dot | openParen | openBracket => rfl
  | comma | closeParen | closeBracket => rfl
  | bang =>
    have noEqual := ne_of_isBreak (ended.resolve_left Bool.false_ne_true)
    simp [written, next?, noEqual]
  | comparison op =>
    have noEqual := ne_of_isBreak (ended.resolve_left Bool.false_ne_true)
    cases op with
    | isIn | notIn => cases sound
    | identical | notIdentical | le | ge => rfl
    | isMatch => exact next?_word (by decide) (by decide) (ended.resolve_left Bool.false_ne_true)
    | eq | notEq | lt | gt => simp [written, Comparison.text, next?, noEqual]

theorem isNameChar_of_isNameStart {c : Char} (start : isNameStart c) : isNameChar c := by
  simp only [isNameStart, isNameChar, Char.isAlphanum, Bool.or_eq_true] at start ⊢
  exact start.imp .inl id

theorem not_isBlank_of_isNameChar {c : Char} (named : isNameChar c) : ¬ isBlank c := by
  intro blank
  simp only [isBlank, Bool.or_eq_true, decide_eq_true_eq] at blank
  rcases blank with ((rfl | rfl) | rfl) | rfl <;> contradiction

theorem exists_cons_written (quote : Quote) {token : Token} (sound : token.isSound)
    (exact : ¬ token.isFloat) :
    ∃ first more, token.written quote = first :: more ∧ ¬ isBlank first := by
  cases token with
  | name text =>
    obtain ⟨first, letters, same, start, -⟩ := exists_of_isName sound
    exact ⟨first, letters, same, not_isBlank_of_isNameChar (isNameChar_of_isNameStart start)⟩
  | string text => exact ⟨_, _, rfl, by cases quote <;> decide⟩
  | int value =>
    obtain ⟨first, others, same⟩ :=
      List.exists_cons_of_ne_nil (Nat.toDigits_ne_nil (b := 10) (n := value))
    have digit : first.isDigit := Nat.isDigit_of_mem_toDigits (b := 10) (n := value) (by decide)
      (by decide) (same ▸ List.mem_cons_self)
    have named : isNameChar first := by simp [isNameChar, Char.isAlphanum, digit]
    exact ⟨first, others, same, not_isBlank_of_isNameChar named⟩
  | float => exact absurd rfl exact
  | comparison op => cases op <;> exact ⟨_, _, rfl, by decide⟩
  | _ => exact ⟨_, _, rfl, by decide⟩

theorem isBreak_cons {c : Char} (boundary : isBoundary c) (more : List Char) :
    isBreak (c :: more) := by
  unfold isBreak
  split
  · rfl
  · next same =>
    cases same
    contradiction
  · next same =>
    cases same
    exact boundary

theorem isBreak_layout_dot (quote : Quote) {ts : List Token} (sound : ∀ t ∈ ts, t.isSound) :
    isBreak (layout quote (.dot :: ts)) := by
  have digitless (c : Char) (more : List Char) (other : c.isDigit = Bool.false) :
      isBreak ('.' :: c :: more) := by simp [isBreak, other]
  cases ts with
  | nil => rfl
  | cons next ts =>
    cases next with
    | name word =>
      have named : isName word := sound (name word) List.mem_cons_self
      obtain ⟨first, letters, same, start, -⟩ := exists_of_isName named
      have other := isDigit_of_isNameStart start
      cases ts with
      | nil => simp [layout, written, joins, same, isBreak, other]
      | cons => simp [layout, written, joins, same, isBreak, other]
    | closeParen | closeBracket | comma | dot => cases ts <;> rfl
    | _ => exact digitless ' ' _ rfl

theorem isBreak_layout_of_joins (quote : Quote) {before token : Token} {ts : List Token}
    (sound : ∀ t ∈ ts, t.isSound) (joined : joins before token) (goesOn : ¬ before.endsItself) :
    isBreak (layout quote (token :: ts)) := by
  have bracket (c : Char) (boundary : isBoundary c) (same : token.written quote = [c]) :
      isBreak (layout quote (token :: ts)) := by
    cases ts <;> simp only [layout, same, List.singleton_append] <;> exact isBreak_cons boundary _
  cases token with
  | closeParen => exact bracket ')' (by decide) rfl
  | closeBracket => exact bracket ']' (by decide) rfl
  | openParen => exact bracket '(' (by decide) rfl
  | comma => exact bracket ',' (by decide) rfl
  | dot => exact isBreak_layout_dot quote sound
  | _ => cases before <;> simp [joins, endsItself] at joined goesOn

theorem scan_written_append (quote : Quote) {token : Token} {rest : List Char}
    (sound : token.isSound) (exact : ¬ token.isFloat) (ended : token.endsItself ∨ isBreak rest) :
    scan (token.written quote ++ rest) = (scan rest).map (token :: ·) := by
  have read := next?_written quote sound exact ended
  obtain ⟨first, more, same, solid⟩ := exists_cons_written quote sound exact
  rw [same] at read ⊢
  have shorter : rest.length < (first :: more ++ rest).length := by
    simp only [List.length_append, List.length_cons]
    omega
  exact scan_of_next? read solid shorter

theorem scan_layout (quote : Quote) {ts : List Token}
    (sound : ∀ t ∈ ts, t.isSound ∧ ¬ t.isFloat) : scan (layout quote ts) = some ts := by
  fun_induction layout quote ts with
  | case1 => simp [scan]
  | case2 token =>
    obtain ⟨here, exact⟩ := sound token List.mem_cons_self
    have ended : token.endsItself ∨ isBreak [] := .inr rfl
    have read := scan_written_append quote here exact ended
    rw [List.append_nil] at read
    rw [read, scan, Option.map_some]
  | case3 token next rest ih =>
    obtain ⟨⟨here, exact⟩, later⟩ := List.forall_mem_cons.mp sound
    have others := ih later
    split
    · next joined =>
      have ended : token.endsItself ∨ isBreak (layout quote (next :: rest)) := by
        by_cases itself : token.endsItself
        · exact .inl itself
        · exact .inr (isBreak_layout_of_joins quote
            (fun t present => (later t (List.mem_cons_of_mem _ present)).1) joined itself)
      rw [List.nil_append, scan_written_append quote here exact ended, others, Option.map_some]
    · have ended : isBreak (' ' :: layout quote (next :: rest)) := rfl
      rw [List.singleton_append, scan_written_append quote here exact (.inr ended), scan.eq_2,
        if_pos (by decide), others, Option.map_some]

theorem isSound_ofWord {first : Char} {letters : List Char} (start : isNameStart first)
    (named : ∀ c ∈ letters, isNameChar c) :
    (ofWord (String.ofList (first :: letters))).isSound := by
  unfold ofWord
  split
  iterate 8 rfl
  · next word _ _ _ _ _ _ _ _ =>
    simp only [isSound, isName, String.toList_ofList, start, List.all_eq_true.mpr named,
      Bool.true_and, Bool.not_eq_true', List.contains_eq_mem, decide_eq_false_iff_not,
      reservedWords, List.mem_cons, List.not_mem_nil, or_false, not_or]
    simp_all

theorem isSound_of_number? {cs after : List Char} {token : Token}
    (found : number? cs = some (token, after)) : token.isSound := by
  unfold number? at found
  dsimp only at found
  split at found
  · split at found
    · next small =>
      cases found
      exact decide_eq_true small
    · contradiction
  · split at found
    · cases found
      rfl
    · contradiction

theorem isSound_of_next? {cs after : List Char} {token : Token}
    (found : next? cs = some (token, after)) : token.isSound := by
  cases readFrom_of_next? found with
  | @symbol text _ listed =>
    have all : ∀ symbol ∈ symbols, symbol.2.isSound := by simp [symbols, isSound]
    exact all _ listed
  | string => rfl
  | number read => exact isSound_of_number? read
  | word start named => exact isSound_ofWord start named

theorem isSound_of_mem_scan {cs : List Char} {ts : List Token} (scanned : scan cs = some ts) :
    ∀ t ∈ ts, t.isSound := by
  fun_induction scan cs generalizing ts with
  | case1 =>
    cases scanned
    exact List.forall_mem_nil _
  | case2 c rest blank ih => exact ih scanned
  | case3 => contradiction
  | case4 c rest solid first after found shorter ih =>
    obtain ⟨others, scannedAfter, same⟩ := Option.map_eq_some_iff.mp scanned
    cases same
    exact List.forall_mem_cons.mpr ⟨isSound_of_next? found, ih scannedAfter⟩
  | case5 => contradiction

end Token

end Visibility
