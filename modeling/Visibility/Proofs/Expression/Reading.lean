import Visibility.Proofs.Expression.Conjunction

set_option autoImplicit false
set_option relaxedAutoImplicit false

/-!
Expressions that read a member of the instance, and how their texts spell it.

The name `object` and the dot after it are tokens; parentheses may be closed between the two, and blanks
may stand between tokens.  The main statement is that nothing else may: every text of an expression that
reads a member of the instance has the name, then blanks and closing parentheses, and then a dot.
-/

namespace Visibility

namespace Expr

inductive ReadsObject : Expr → Prop where
  | member {name : String} : ReadsObject (.member (.var "object") name)
  | method {name : String} {args : List Expr} : ReadsObject (.methodCall (.var "object") name args)
  | memberTarget {target : Expr} {name : String} :
      ReadsObject target → ReadsObject (.member target name)
  | methodTarget {target : Expr} {name : String} {args : List Expr} :
      ReadsObject target → ReadsObject (.methodCall target name args)
  | methodArgument {target arg : Expr} {name : String} {args : List Expr} :
      arg ∈ args → ReadsObject arg → ReadsObject (.methodCall target name args)
  | callArgument {arg : Expr} {function : String} {args : List Expr} :
      arg ∈ args → ReadsObject arg → ReadsObject (.call function args)
  | item {item : Expr} {items : List Expr} : item ∈ items → ReadsObject item → ReadsObject (.list items)
  | operand {op : UnaryOp} {operand : Expr} : ReadsObject operand → ReadsObject (.unary op operand)
  | left {op : BinaryOp} {left right : Expr} : ReadsObject left → ReadsObject (.binary op left right)
  | right {op : BinaryOp} {left right : Expr} :
      ReadsObject right → ReadsObject (.binary op left right)

/-- Tokens at the end of which stands the name of the instance, with parentheses closed after it. -/
def EndsInObject (ts rest : List Token) : Prop :=
  ∃ closing, (.name "object" :: (List.replicate closing .closeParen ++ rest)) <:+ ts

/-- Tokens with the name of the instance and a dot after it, parentheses closed in between. -/
def HasObjectDot (ts : List Token) : Prop :=
  ∃ after, EndsInObject ts (.dot :: after)

theorem HasObjectDot.of_suffix {ts mid : List Token} (suffix : mid <:+ ts) (has : HasObjectDot mid) :
    HasObjectDot ts := by
  obtain ⟨after, closing, ends⟩ := has
  exact ⟨after, closing, ends.trans suffix⟩

theorem suffix_of_comparison? {ts rest : List Token} {op : Comparison}
    (found : comparison? ts = some (op, rest)) : rest <:+ ts := by
  unfold comparison? at found
  split at found
  · cases found
    exact List.suffix_cons _ _
  · cases found
    exact List.suffix_cons _ _
  · cases found
    exact (List.suffix_cons _ _).trans (List.suffix_cons _ _)
  · contradiction

def Phrase.ObjectAtEnd (ts rest : List Token) : Phrase → Prop
  | expression result | conjunction result | comparing result | unary result | primary result =>
    result = .var "object" → EndsInObject ts rest
  | orTail left result | andTail left result | postfixTail left result =>
    result = .var "object" → left = .var "object" ∧ ts = rest
  | arguments _ | argumentList _ | items _ | itemList _ => True

def Phrase.ShowsObject (ts : List Token) : Phrase → Prop
  | expression result | conjunction result | comparing result | unary result | primary result =>
    result.ReadsObject → HasObjectDot ts
  | orTail left result | andTail left result =>
    result.ReadsObject → left.ReadsObject ∨ HasObjectDot ts
  | postfixTail target result =>
    result.ReadsObject →
      target.ReadsObject ∨ HasObjectDot ts ∨ target = .var "object" ∧ ∃ after, ts = .dot :: after
  | arguments results | argumentList results | items results | itemList results =>
    ∀ result ∈ results, result.ReadsObject → HasObjectDot ts

namespace Reads

variable {phrase : Phrase} {ts rest : List Token}

theorem suffix (reads : Reads phrase ts rest) : rest <:+ ts := by
  induction reads with
  | expression _ _ first second | conjunction _ _ first second | postfixed _ _ first second =>
    exact second.trans first
  | orMore _ _ first second | andMore _ _ first second =>
    exact (second.trans first).trans (List.suffix_cons _ _)
  | compared _ found _ first second =>
    exact second.trans ((suffix_of_comparison? found).trans first)
  | operand _ _ ih | someArguments _ ih | someItems _ ih => exact ih
  | not _ ih | bang _ ih | minus _ ih | list _ ih => exact ih.trans (List.suffix_cons _ _)
  | call _ ih | member _ _ ih => exact ih.trans (List.suffix_append [_, _] _)
  | method _ _ first second =>
    exact (second.trans first).trans (List.suffix_append [_, _, _] _)
  | orEnd | andEnd | postfixEnd => exact List.suffix_rfl
  | string | int | float | «true» | «false» | null | var | noArguments | noItems =>
    exact List.suffix_cons _ _
  | onlyComma => exact List.suffix_append [_, _] _
  | parens _ ih => exact ((List.suffix_cons _ _).trans ih).trans (List.suffix_cons _ _)
  | argument _ _ first second | item _ _ first second =>
    exact second.trans ((List.suffix_cons _ _).trans first)
  | lastArgument _ ih | lastItem _ ih => exact (List.suffix_cons _ _).trans ih
  | lastItemComma _ ih => exact (List.suffix_append [_, _] _).trans ih

theorem objectAtEnd (reads : Reads phrase ts rest) : phrase.ObjectAtEnd ts rest := by
  induction reads with
  | expression _ _ first tail | conjunction _ _ first tail | postfixed _ _ first tail =>
    intro named
    obtain ⟨alone, rfl⟩ := tail named
    exact first alone
  | orMore _ _ _ tail | andMore _ _ _ tail | method _ _ _ tail | member _ _ tail =>
    intro named
    obtain ⟨other, _⟩ := tail named
    contradiction
  | orEnd | andEnd | postfixEnd => exact fun named => ⟨named, rfl⟩
  | operand _ _ ih => exact ih
  | parens _ ih =>
    -- one more parenthesis is closed after the name
    intro named
    obtain ⟨closing, ends⟩ := ih named
    refine ⟨closing + 1, ?_⟩
    rw [List.replicate_succ', List.append_assoc]
    exact ends.trans (List.suffix_cons _ _)
  | var _ =>
    rintro ⟨⟩
    exact ⟨0, List.suffix_rfl⟩
  | compared | not | bang | minus | string | int | float | «true» | «false» | null | list | call =>
    nofun
  | noArguments | someArguments | argument | lastArgument | noItems | onlyComma | someItems | item
  | lastItem | lastItemComma => trivial

theorem showsObject (reads : Reads phrase ts rest) : phrase.ShowsObject ts := by
  induction reads with
  | expression readsFirst _ first tail | conjunction readsFirst _ first tail =>
    intro reads
    rcases tail reads with inFirst | later
    · exact first inFirst
    · exact later.of_suffix readsFirst.suffix
  | orMore readsRight _ inRight tail | andMore readsRight _ inRight tail =>
    intro reads
    rcases tail reads with both | later
    · cases both with
      | left inLeft => exact .inl inLeft
      | right here => exact .inr ((inRight here).of_suffix (List.suffix_cons _ _))
    · exact .inr ((later.of_suffix readsRight.suffix).of_suffix (List.suffix_cons _ _))
  | orEnd | andEnd | postfixEnd => exact .inl
  | compared readsLeft found _ inLeft inRight =>
    intro reads
    cases reads with
    | left here => exact inLeft here
    | right here =>
      exact (inRight here).of_suffix ((suffix_of_comparison? found).trans readsLeft.suffix)
  | operand _ _ ih | someArguments _ ih | someItems _ ih => exact ih
  | not _ ih | bang _ ih | minus _ ih =>
    intro reads
    cases reads with
    | operand here => exact (ih here).of_suffix (List.suffix_cons _ _)
  | postfixed readsFirst _ first tail =>
    intro reads
    rcases tail reads with inFirst | later | ⟨alone, after, dotted⟩
    · exact first inFirst
    · exact later.of_suffix readsFirst.suffix
    · -- the first dot stands right after the instance
      have ends := readsFirst.objectAtEnd alone
      rw [dotted] at ends
      exact ⟨after, ends⟩
  | method readsArgs _ inArgs tail =>
    intro reads
    rcases tail reads with inTarget | later | ⟨other, _⟩
    · cases inTarget with
      | method => exact .inr (.inr ⟨rfl, _, rfl⟩)
      | methodTarget here => exact .inl here
      | methodArgument present here =>
        exact .inr (.inl ((inArgs _ present here).of_suffix (List.suffix_append [_, _, _] _)))
    · exact .inr (.inl ((later.of_suffix readsArgs.suffix).of_suffix (List.suffix_append [_, _, _] _)))
    · contradiction
  | member _ _ tail =>
    intro reads
    rcases tail reads with inTarget | later | ⟨other, _⟩
    · cases inTarget with
      | member => exact .inr (.inr ⟨rfl, _, rfl⟩)
      | memberTarget here => exact .inl here
    · exact .inr (.inl (later.of_suffix (List.suffix_append [_, _] _)))
    · contradiction
  | list _ ih =>
    intro reads
    cases reads with
    | item present here => exact (ih _ present here).of_suffix (List.suffix_cons _ _)
  | parens _ ih =>
    intro reads
    exact (ih reads).of_suffix (List.suffix_cons _ _)
  | call _ ih =>
    intro reads
    cases reads with
    | callArgument present here => exact (ih _ present here).of_suffix (List.suffix_append [_, _] _)
  | string | int | float | «true» | «false» | null | var => nofun
  | noArguments | noItems | onlyComma => nofun
  | argument readsFirst _ first others | item readsFirst _ first others =>
    intro result present reads
    rcases List.mem_cons.mp present with rfl | later
    · exact first reads
    · exact (others result later reads).of_suffix ((List.suffix_cons _ _).trans readsFirst.suffix)
  | lastArgument _ ih | lastItem _ ih | lastItemComma _ ih =>
    intro result present reads
    cases List.mem_singleton.mp present
    exact ih reads

end Reads

end Expr

namespace Token

/-- How a token of one of the sorts between the instance and its member is written. -/
def IsWritten (cs : List Char) : Token → Prop
  | name word => cs = word.toList
  | dot => cs = ['.']
  | closeParen => cs = [')']
  | _ => True

theorem isWritten_ofWord (word : String) : (ofWord word).IsWritten word.toList := by
  unfold ofWord
  split <;> trivial

theorem quotedTail_suffix {quote : Char} {cs text after : List Char}
    (found : quotedTail quote cs = some (text, after)) : after <:+ cs := by
  fun_induction quotedTail quote cs generalizing text after with
  | case1 => contradiction
  | case2 rest =>
    cases found
    exact List.suffix_cons _ _
  | case3 => contradiction
  | case4 e rest _ ih =>
    simp only [Option.map_eq_some_iff, Prod.exists, Prod.mk.injEq] at found
    obtain ⟨inner, _, tail, _, rfl⟩ := found
    exact (ih tail).trans (List.suffix_append [_, _] _)
  | case5 c rest _ _ ih =>
    simp only [Option.map_eq_some_iff, Prod.exists, Prod.mk.injEq] at found
    obtain ⟨inner, _, tail, _, rfl⟩ := found
    exact (ih tail).trans (List.suffix_cons _ _)

theorem isWritten_number? {cs after : List Char} {token : Token}
    (found : number? cs = some (token, after)) :
    after <:+ cs ∧ ∀ written, token.IsWritten written := by
  have rest : cs.dropWhile Char.isDigit <:+ cs := List.dropWhile_suffix _
  unfold number? at found
  dsimp only at found
  split at found
  · split at found
    · cases found
      exact ⟨rest, fun _ => trivial⟩
    · contradiction
  · split at found
    · cases found
      exact ⟨(List.drop_suffix _ _).trans rest, fun _ => trivial⟩
    · contradiction

theorem isWritten_of_mem_symbols {text : String} {token : Token} (listed : (text, token) ∈ symbols) :
    token.IsWritten text.toList := by
  have all : ∀ symbol ∈ symbols, symbol.2.IsWritten symbol.1.toList := by
    simp [symbols, IsWritten]
  exact all _ listed

theorem exists_isWritten {cs after : List Char} {token : Token}
    (found : next? cs = some (token, after)) :
    ∃ written, cs = written ++ after ∧ token.IsWritten written := by
  cases readFrom_of_next? found with
  | symbol listed => exact ⟨_, rfl, isWritten_of_mem_symbols listed⟩
  | @string quote inner _ tail =>
    obtain ⟨quoted, rfl⟩ := quotedTail_suffix tail
    exact ⟨quote :: quoted, rfl, trivial⟩
  | number read =>
    obtain ⟨⟨written, same⟩, plain⟩ := isWritten_number? read
    exact ⟨written, same.symm, plain written⟩
  | @word first letters =>
    have word := isWritten_ofWord (String.ofList (first :: letters))
    rw [String.toList_ofList] at word
    exact ⟨first :: letters, rfl, word⟩

theorem exists_blanks {cs : List Char} {token : Token} {ts : List Token}
    (scanned : scan cs = some (token :: ts)) :
    ∃ blanks written after, cs = blanks ++ written ++ after ∧ (∀ c ∈ blanks, isBlank c) ∧
      token.IsWritten written ∧ scan after = some ts := by
  fun_induction scan cs with
  | case1 => cases scanned
  | case2 c rest blank ih =>
    obtain ⟨blanks, written, after, rfl, allBlank, writes, scannedAfter⟩ := ih scanned
    exact ⟨c :: blanks, written, after, rfl, List.forall_mem_cons.mpr ⟨blank, allBlank⟩, writes,
      scannedAfter⟩
  | case3 => contradiction
  | case4 c rest solid first after found shorter ih =>
    obtain ⟨others, scannedAfter, same⟩ := Option.map_eq_some_iff.mp scanned
    cases same
    obtain ⟨written, split, writes⟩ := exists_isWritten found
    exact ⟨[], written, after, split, List.forall_mem_nil _, writes, scannedAfter⟩
  | case5 => contradiction

theorem exists_scan_of_suffix {cs : List Char} {ts tail : List Token}
    (scanned : scan cs = some ts) (suffix : tail <:+ ts) :
    ∃ later, later <:+ cs ∧ scan later = some tail := by
  induction ts generalizing cs with
  | nil =>
    rw [List.suffix_nil] at suffix
    exact ⟨cs, List.suffix_rfl, suffix ▸ scanned⟩
  | cons token ts ih =>
    rcases List.suffix_cons_iff.mp suffix with rfl | further
    · exact ⟨cs, List.suffix_rfl, scanned⟩
    · obtain ⟨blanks, written, after, rfl, _, _, scannedAfter⟩ := exists_blanks scanned
      obtain ⟨later, inAfter, scannedLater⟩ := ih scannedAfter further
      exact ⟨later, inAfter.trans (List.suffix_append _ _), scannedLater⟩

theorem exists_gap {closing : Nat} {cs : List Char} {ts : List Token}
    (scanned : scan cs = some (List.replicate closing .closeParen ++ .dot :: ts)) :
    ∃ gap after, cs = gap ++ '.' :: after ∧ ∀ c ∈ gap, isBlank c ∨ c = ')' := by
  induction closing generalizing cs with
  | zero =>
    obtain ⟨blanks, _, after, rfl, allBlank, rfl, _⟩ := exists_blanks scanned
    exact ⟨blanks, after, by simp, fun c present => .inl (allBlank c present)⟩
  | succ closing ih =>
    obtain ⟨blanks, _, rest, rfl, allBlank, rfl, scannedRest⟩ := exists_blanks scanned
    obtain ⟨gap, after, rfl, allowed⟩ := ih scannedRest
    refine ⟨blanks ++ ')' :: gap, after, by simp, fun c present => ?_⟩
    simp only [List.mem_append, List.mem_cons] at present
    rcases present with inBlanks | rfl | inGap
    · exact .inl (allBlank c inBlanks)
    · exact .inr rfl
    · exact allowed c inGap

end Token

/-- The text of an expression that reads a member of the instance has the name of the instance and a
dot, with nothing but blanks and closing parentheses between them. -/
theorem Expr.ReadsObject.exists_gap {text : String} {expr : Expr} (reads : expr.ReadsObject)
    (parsed : parse? text = some expr) :
    ∃ before gap after, text.toList = before ++ "object".toList ++ gap ++ '.' :: after ∧
      ∀ c ∈ gap, Token.isBlank c ∨ c = ')' := by
  obtain ⟨ts, scanned, read⟩ := parse?_eq_some_iff.mp parsed
  obtain ⟨_, closing, ends⟩ := read.showsObject reads
  obtain ⟨_, ⟨before, split⟩, scannedName⟩ := Token.exists_scan_of_suffix scanned ends
  obtain ⟨blanks, _, rest, rfl, _, rfl, scannedRest⟩ := Token.exists_blanks scannedName
  obtain ⟨gap, after, rfl, allowed⟩ := Token.exists_gap scannedRest
  exact ⟨before ++ blanks, gap, after, by simp [← split], allowed⟩

end Visibility
