/- Texture/Proofs/Json/Written
   digest: The text of a value is cut into the tokens of the value, and these are put together to its
   tree. -/

import Texture.Proofs.Json.Lexeme

set_option autoImplicit false
set_option relaxedAutoImplicit false

namespace Texture.Json

mutual

def EachNumber (p : Numeral → Prop) : Json → Prop
  | null | bool _ | string _ => True
  | number n => p n
  | array items => EachOfItems p items
  | object fields => EachOfFields p fields

def EachOfItems (p : Numeral → Prop) : List Json → Prop
  | [] => True
  | x :: xs => x.EachNumber p ∧ EachOfItems p xs

def EachOfFields (p : Numeral → Prop) : List (String × Json) → Prop
  | [] => True
  | (_, x) :: rest => x.EachNumber p ∧ EachOfFields p rest

end

theorem eachOfItems_iff {p : Numeral → Prop} {items : List Json} :
    EachOfItems p items ↔ ∀ x ∈ items, x.EachNumber p := by
  induction items with
  | nil => simp [EachOfItems]
  | cons x xs ih => simp [EachOfItems, ih]

mutual

/-- Where whole numbers are in range, only floats can be spelled inexactly. -/
theorem eachNumber_readsBack (x : Json) (held : x.IsValue)
    (exact : x.EachNumber Numeral.RealReadsBack) : x.EachNumber Numeral.ReadsBack := by
  cases x with
  | null | bool _ | string _ => trivial
  | number n =>
    cases n with
    | natural n => exact Numeral.readsBack_natural held
    | negative n => exact Numeral.readsBack_negative held.1 held.2
    | real x => exact exact
  | array items => exact eachOfItems_readsBack items held exact
  | object fields => exact eachOfFields_readsBack fields held.2 exact

private theorem eachOfItems_readsBack (items : List Json) (held : AreValues items)
    (exact : EachOfItems Numeral.RealReadsBack items) : EachOfItems Numeral.ReadsBack items := by
  cases items with
  | nil => trivial
  | cons x xs =>
    exact ⟨eachNumber_readsBack x held.1 exact.1, eachOfItems_readsBack xs held.2 exact.2⟩

private theorem eachOfFields_readsBack (fields : List (String × Json)) (held : AreFields fields)
    (exact : EachOfFields Numeral.RealReadsBack fields) :
    EachOfFields Numeral.ReadsBack fields := by
  cases fields with
  | nil => trivial
  | cons field rest =>
    exact ⟨eachNumber_readsBack field.2 held.1 exact.1, eachOfFields_readsBack rest held.2 exact.2⟩

end

def piece (c : Char) : Piece :=
  if c.toNat < 32 ∧ c ≠ '\n' ∧ c ≠ '\r' ∧ c ≠ '\t' ∧ c.toNat ≠ 8 ∧ c.toNat ≠ 12 then .unit c.toNat
  else .char c

mutual

def tokens : Json → List Token
  | null => [.null]
  | bool b => [.bool b]
  | number n => ((Lexeme.ofChars? (writeNumeral n).toList).map Token.number).toList
  | string s => [.string (s.toList.map piece)]
  | array [] => [.openArray, .closeArray]
  | array (x :: xs) => .openArray :: (tokens x ++ (itemTokens xs ++ [.closeArray]))
  | object [] => [.openObject, .closeObject]
  | object ((name, x) :: rest) =>
    .openObject :: .string (name.toList.map piece) :: .colon
      :: (tokens x ++ (fieldTokens rest ++ [.closeObject]))

/-- The tokens of further items, each behind a comma. -/
def itemTokens : List Json → List Token
  | [] => []
  | x :: xs => .comma :: (tokens x ++ itemTokens xs)

def fieldTokens : List (String × Json) → List Token
  | [] => []
  | (name, x) :: rest =>
    .comma :: .string (name.toList.map piece) :: .colon :: (tokens x ++ fieldTokens rest)

end

namespace Token

def run (state : List Token × Mode) (cs : List Char) : Option (List Token × Mode) :=
  cs.foldlM step state

variable {ts us : List Token} {state : List Token × Mode}

theorem run_nil (state : List Token × Mode) : run state [] = some state := rfl

private theorem run_cons (state : List Token × Mode) (c : Char) (cs : List Char) :
    run state (c :: cs) = (step state c).bind fun next => run next cs := rfl

private theorem run_append (state : List Token × Mode) (cs ds : List Char) :
    run state (cs ++ ds) = (run state cs).bind fun next => run next ds := by
  rw [run, List.foldlM_append]
  rfl

/-- The characters lead to a state that, when the text ends there, leaves these tokens. -/
def Leaves (state : List Token × Mode) (cs : List Char) (ts : List Token) : Prop :=
  ∃ next, run state cs = some next ∧ finish next.1 next.2 = some ts

private theorem leaves_of_run {cs : List Char} (reached : run state cs = some (ts, .plain)) :
    Leaves state cs ts := ⟨(ts, .plain), reached, rfl⟩

private theorem Leaves.append {cs ds : List Char} (first : Leaves state cs ts)
    (second : ∀ next, finish next.1 next.2 = some ts → Leaves next ds us) :
    Leaves state (cs ++ ds) us := by
  obtain ⟨next, reached, done⟩ := first
  obtain ⟨last, led, ends⟩ := second next done
  exact ⟨last, by rw [run_append, reached, Option.bind_some, led], ends⟩

private theorem run_leaves {cs ds : List Char} (reached : run state cs = some (ts, .plain))
    (after : Leaves (ts, .plain) ds us) : Leaves state (cs ++ ds) us := by
  obtain ⟨last, led, ends⟩ := after
  exact ⟨last, by rw [run_append, reached, Option.bind_some, led], ends⟩

private theorem step_of_finish {c : Char} (ended : finish state.1 state.2 = some ts)
    (letter : c.isLower = false) (part : isNumberPart c = false) : step state c = begin ts c := by
  obtain ⟨read, mode⟩ := state
  cases mode with
  | plain =>
    cases ended
    rfl
  | word cs => simp [step, letter, ended]
  | number cs => simp [step, part, ended]
  | string ps | escape ps | unit ps n digits => cases ended

private theorem run_blanks (n : Nat) :
    run (ts, .plain) (List.replicate n ' ') = some (ts, .plain) := by
  induction n with
  | zero => rfl
  | succ n ih => exact ih

private theorem run_newLine (ended : finish state.1 state.2 = some ts) (level : Nat) :
    run state (newLine level).toList = some (ts, .plain) := by
  have line : (newLine level).toList = '\n' :: List.replicate (2 * level) ' ' := by
    simp [newLine]
  have ends : step state '\n' = some (ts, .plain) := step_of_finish ended rfl rfl
  rw [line, run_cons, ends]
  exact run_blanks _

private theorem run_comma (ended : finish state.1 state.2 = some ts) :
    run state [','] = some (comma :: ts, .plain) := by
  have ends : step state ',' = some (comma :: ts, .plain) := step_of_finish ended rfl rfl
  rw [run_cons, ends]
  rfl

private theorem hexValue?_hexDigit {n : Nat} (small : n < 16) :
    hexValue? (Color.hexDigit n) = some n := by
  have all : ∀ n < 16, hexValue? (Color.hexDigit n) = some n := by decide
  exact all n small

private theorem run_writeChar (ps : List Piece) (c : Char) :
    run (ts, .string ps) (writeChar c) = some (ts, .string (piece c :: ps)) := by
  unfold writeChar
  split_ifs with quote slash line back tab bell page control
  · rw [quote]; rfl
  · rw [slash]; rfl
  · rw [line]; rfl
  · rw [back]; rfl
  · rw [tab]; rfl
  · have same : c = Char.ofNat 8 := by rw [← bell, Char.ofNat_toNat]
    rw [same]; rfl
  · have same : c = Char.ofNat 12 := by rw [← page, Char.ofNat_toNat]
    rw [same]; rfl
  · have high : hexValue? (Color.hexDigit (c.toNat / 16)) = some (c.toNat / 16) :=
      hexValue?_hexDigit (by omega)
    have low : hexValue? (Color.hexDigit (c.toNat % 16)) = some (c.toNat % 16) :=
      hexValue?_hexDigit (by omega)
    have zero : hexValue? '0' = some 0 := rfl
    have whole : 16 * (c.toNat / 16) + c.toNat % 16 = c.toNat := by omega
    have unit : piece c = .unit c.toNat := by
      simp [piece, control, line, back, tab, bell, page]
    simp [run_cons, run_nil, step, zero, high, low, whole, unit]
  · have plain : piece c = .char c := by simp [piece, control]
    simp [run_cons, run_nil, step, quote, slash, control, plain]

private theorem run_writeString (s : String) :
    run (ts, .plain) (writeString s).toList
      = some (string (s.toList.map piece) :: ts, .plain) := by
  have inside : ∀ (cs : List Char) (ps : List Piece),
      run (ts, .string ps) (cs.flatMap writeChar)
        = some (ts, .string ((cs.map piece).reverse ++ ps)) := by
    intro cs
    induction cs with
    | nil => exact fun _ => rfl
    | cons c cs ih =>
      intro ps
      rw [List.flatMap_cons, run_append, run_writeChar, Option.bind_some, ih, List.map_cons,
        List.reverse_cons, List.append_assoc, List.singleton_append]
  have start : step (ts, .plain) '"' = some (ts, .string []) := rfl
  rw [writeString, String.toList_ofList, run_cons, start, Option.bind_some, run_append, inside,
    Option.bind_some, List.append_nil]
  simp [run_cons, run_nil, step]

private theorem begin_number {c : Char} (first : c = '-' ∨ c.isDigit = true) :
    begin ts c = some (ts, .number [c]) := by
  have size : c.toNat = 45 ∨ 48 ≤ c.toNat ∧ c.toNat ≤ 57 := by
    rcases first with rfl | digit
    · exact .inl rfl
    · right
      simpa [Char.isDigit, UInt32.le_iff_toNat_le] using digit
  have unlike : ∀ d : Char, d.toNat ≠ 45 → ¬(48 ≤ d.toNat ∧ d.toNat ≤ 57) → c ≠ d := by
    rintro d other outside rfl
    omega
  have brace : c.toNat ≠ 0x7b ∧ c.toNat ≠ 0x7d := by omega
  simp [begin, first, brace, unlike ' ', unlike '\t', unlike '\n', unlike '\r', unlike '[',
    unlike ']', unlike ',', unlike ':', unlike '"']

private theorem leaves_number {cs : List Char} {l : Lexeme}
    (spelled : Lexeme.ofChars? cs = some l) : Leaves (ts, .plain) cs (number l :: ts) := by
  obtain ⟨c, rest, rfl, first, parts⟩ := Lexeme.ofChars?_eq_some spelled
  have gathered : ∀ (ds read : List Char), (∀ d ∈ ds, isNumberPart d = true) →
      run (ts, .number read) ds = some (ts, .number (ds.reverse ++ read)) := by
    intro ds
    induction ds with
    | nil => exact fun _ _ => rfl
    | cons d ds ih =>
      intro read all
      have taken : step (ts, .number read) d = some (ts, .number (d :: read)) := by
        simp [step, all d (by simp)]
      rw [run_cons, taken, Option.bind_some, ih _ fun e held => all e (by simp [held])]
      simp
  have entered : step (ts, .plain) c = some (ts, .number [c]) := begin_number first
  refine ⟨(ts, .number (rest.reverse ++ [c])), ?_, ?_⟩
  · rw [run_cons, entered, Option.bind_some, gathered rest [c] parts]
  · simp [finish, spelled]

private theorem leaves_word {w : List Char} {t : Token}
    (reached : run (ts, .plain) w = some (ts, .word w.reverse)) (read : ofWord w = some t) :
    Leaves (ts, .plain) w (t :: ts) :=
  ⟨_, reached, by simp [finish, read]⟩

private theorem run_key (name : String) :
    run (ts, .plain) ((writeString name).toList ++ ": ".toList)
      = some (colon :: string (name.toList.map piece) :: ts, .plain) := by
  rw [run_append, run_writeString]
  rfl

private theorem leaves_end (ended : finish state.1 state.2 = some ts) (level : Nat) {c : Char}
    {t : Token} (last : begin ts c = some (t :: ts, .plain)) :
    Leaves state ((newLine level).toList ++ [c]) (t :: ts) := by
  refine leaves_of_run ?_
  rw [run_append, run_newLine ended, Option.bind_some]
  have ending : step (ts, .plain) c = some (t :: ts, .plain) := last
  rw [run_cons, ending]
  rfl

mutual

private theorem leaves_pretty (x : Json) (level : Nat) (exact : x.EachNumber Numeral.ReadsBack)
    (ts : List Token) :
    Leaves (ts, .plain) (x.pretty level).toList (x.tokens.reverse ++ ts) := by
  cases x with
  | null =>
    have text : (pretty level .null).toList = ['n', 'u', 'l', 'l'] := by rw [pretty]; rfl
    rw [text]
    exact leaves_word rfl rfl
  | bool b =>
    cases b with
    | true =>
      have text : (pretty level (.bool true)).toList = ['t', 'r', 'u', 'e'] := by rw [pretty]; rfl
      rw [text]
      exact leaves_word rfl rfl
    | false =>
      have text : (pretty level (.bool false)).toList = ['f', 'a', 'l', 's', 'e'] := by rw [pretty]; rfl
      rw [text]
      exact leaves_word rfl rfl
  | number n =>
    obtain ⟨l, spelled, -⟩ := Option.bind_eq_some_iff.1 exact
    simpa [pretty, Json.tokens, spelled] using leaves_number spelled
  | string s => exact leaves_of_run (run_writeString s)
  | array items =>
    cases items with
    | nil =>
      have text : (pretty level (.array [])).toList = ['[', ']'] := by rw [pretty]; rfl
      rw [text]
      exact leaves_of_run rfl
    | cons x xs =>
      have written : (tokens (.array (x :: xs))).reverse ++ ts
          = .closeArray :: ((itemTokens xs).reverse ++ (x.tokens.reverse ++ .openArray :: ts)) := by
        simp [Json.tokens]
      have opened : run (ts, .plain) "[".toList = some (.openArray :: ts, .plain) := rfl
      simp only [pretty, String.toList_append, List.append_assoc]
      rw [written]
      refine run_leaves opened (run_leaves (run_newLine rfl (level + 1)) ?_)
      -- A value may end in a number, which only the next character ends.
      refine (leaves_pretty x (level + 1) exact.1 _).append fun next ended => ?_
      refine (leaves_prettyItems xs (level + 1) exact.2 ended).append fun next ended => ?_
      exact leaves_end ended level rfl
  | object fields =>
    cases fields with
    | nil =>
      have text : (pretty level (.object [])).toList = [Char.ofNat 0x7b, Char.ofNat 0x7d] := by rw [pretty]; rfl
      rw [text]
      exact leaves_of_run rfl
    | cons field rest =>
      obtain ⟨name, x⟩ := field
      have written : (tokens (.object ((name, x) :: rest))).reverse ++ ts
          = .closeObject :: ((fieldTokens rest).reverse ++ (x.tokens.reverse
            ++ .colon :: .string (name.toList.map piece) :: .openObject :: ts)) := by
        simp [Json.tokens]
      have opened : run (ts, .plain) "\x7b".toList = some (.openObject :: ts, .plain) := rfl
      simp only [pretty, String.toList_append, List.append_assoc]
      rw [written]
      refine run_leaves opened (run_leaves (run_newLine rfl (level + 1)) ?_)
      rw [← List.append_assoc (writeString name).toList]
      refine run_leaves (run_key name) ?_
      refine (leaves_pretty x (level + 1) exact.1 _).append fun next ended => ?_
      refine (leaves_prettyFields rest (level + 1) exact.2 ended).append
        fun next ended => ?_
      exact leaves_end ended level rfl

private theorem leaves_prettyItems (xs : List Json) (level : Nat)
    (exact : EachOfItems Numeral.ReadsBack xs) {state : List Token × Mode} {ts : List Token}
    (ended : finish state.1 state.2 = some ts) :
    Leaves state (prettyItems level xs).toList ((itemTokens xs).reverse ++ ts) := by
  cases xs with
  | nil => exact ⟨state, rfl, ended⟩
  | cons x xs =>
    have written : (itemTokens (x :: xs)).reverse ++ ts
        = (itemTokens xs).reverse ++ (x.tokens.reverse ++ .comma :: ts) := by
      simp [itemTokens]
    simp only [prettyItems, String.toList_append, List.append_assoc]
    rw [written]
    refine run_leaves (run_comma ended) (run_leaves (run_newLine rfl level) ?_)
    refine (leaves_pretty x level exact.1 _).append fun next ended => ?_
    exact leaves_prettyItems xs level exact.2 ended

private theorem leaves_prettyFields (fields : List (String × Json)) (level : Nat)
    (exact : EachOfFields Numeral.ReadsBack fields)
    {state : List Token × Mode} {ts : List Token}
    (ended : finish state.1 state.2 = some ts) :
    Leaves state (prettyFields level fields).toList ((fieldTokens fields).reverse ++ ts) := by
  cases fields with
  | nil => exact ⟨state, rfl, ended⟩
  | cons field rest =>
    obtain ⟨name, x⟩ := field
    have written : (fieldTokens ((name, x) :: rest)).reverse ++ ts
        = (fieldTokens rest).reverse ++ (x.tokens.reverse
          ++ .colon :: .string (name.toList.map piece) :: .comma :: ts) := by
      simp [fieldTokens]
    simp only [prettyFields, String.toList_append, List.append_assoc]
    rw [written]
    refine run_leaves (run_comma ended) (run_leaves (run_newLine rfl level) ?_)
    rw [← List.append_assoc (writeString name).toList]
    refine run_leaves (run_key name) ?_
    refine (leaves_pretty x level exact.1 _).append fun next ended => ?_
    exact leaves_prettyFields rest level exact.2 ended

end

private theorem ofText?_pretty {x : Json} (exact : x.EachNumber Numeral.ReadsBack) :
    ofText? (x.pretty 0) = some x.tokens := by
  obtain ⟨⟨read, mode⟩, reached, ended⟩ := leaves_pretty x 0 exact []
  have folded : (x.pretty 0).toList.foldlM step ([], .plain) = some (read, mode) := reached
  have finished : finish read mode = some x.tokens.reverse := by simpa using ended
  simp [ofText?, folded, finished]

end Token

namespace Draft

def run (state : List Frame × Phase) (ts : List Token) : Option (List Frame × Phase) :=
  ts.foldlM step state

variable {stack : List Frame}

theorem run_nil (state : List Frame × Phase) : run state [] = some state := rfl

private theorem run_cons (state : List Frame × Phase) (t : Token) (ts : List Token) :
    run state (t :: ts) = (step state t).bind fun next => run next ts := rfl

private theorem run_append (state : List Frame × Phase) (ts us : List Token) :
    run state (ts ++ us) = (run state ts).bind fun next => run next us := by
  rw [run, List.foldlM_append]
  rfl

private theorem join_unit {n : Nat} (low : n < 32) (rest : List Piece) (text : List Char) :
    join (.unit n :: rest) text = join rest (Char.ofNat n :: text) := by
  have second : ¬(0xdc00 ≤ n ∧ n ≤ 0xdfff) := by omega
  have first : ¬(0xd800 ≤ n ∧ n ≤ 0xdbff) := by omega
  rcases rest with _ | ⟨_ | _, rest⟩ <;> simp [join, second, first]

private theorem join_piece (cs text : List Char) :
    join (cs.map piece) text = .ok (String.ofList (text.reverse ++ cs)) := by
  induction cs generalizing text with
  | nil => simp [join]
  | cons c cs ih =>
    have taken : join ((c :: cs).map piece) text = join (cs.map piece) (c :: text) := by
      rw [List.map_cons, piece]
      split_ifs with control
      · rw [join_unit control.1, Char.ofNat_toNat]
      · rfl
    rw [taken, ih]
    simp

private theorem join_string (s : String) : join (s.toList.map piece) [] = .ok s := by
  simp [join_piece]

private theorem tokens_eq_cons {x : Json} (exact : x.EachNumber Numeral.ReadsBack) :
    ∃ t rest, x.tokens = t :: rest ∧ t ≠ .closeArray := by
  cases x with
  | null | bool _ | string _ => exact ⟨_, _, rfl, nofun⟩
  | number n =>
    obtain ⟨l, spelled, -⟩ := Option.bind_eq_some_iff.1 exact
    exact ⟨.number l, [], by simp [tokens, spelled], nofun⟩
  | array items => cases items <;> exact ⟨_, _, rfl, nofun⟩
  | object fields => cases fields <;> exact ⟨_, _, rfl, nofun⟩

private theorem run_firstItem {x : Json} (exact : x.EachNumber Numeral.ReadsBack)
    (stack : List Frame) :
    run (stack, .firstItem) x.tokens = run (stack, .value) x.tokens := by
  obtain ⟨t, rest, same, other⟩ := tokens_eq_cons exact
  have start : step (stack, .firstItem) t = step (stack, .value) t := by
    cases t <;> first | rfl | contradiction
  rw [same, run_cons, run_cons, start]

private theorem run_field {name : String} {x : Json} {read : List (Scalar String × Draft)}
    {key : Scalar String} {phase : Phase}
    (value : ∀ stack, run (stack, .value) x.tokens = some (place (ofJson x) stack))
    (due : ∀ ps, step (.object read key :: stack, phase) (.string ps)
      = startKey ps (.object read key :: stack)) :
    run (.object read key :: stack, phase)
        (.string (name.toList.map piece) :: .colon :: x.tokens)
      = some (.object ((.ok name, ofJson x) :: read) (.ok name) :: stack, .separator) := by
  have named : startKey (name.toList.map piece) (.object read key :: stack)
      = some (.object read (.ok name) :: stack, .colon) := by
    rw [startKey, join_string]
  have marked : step (.object read (.ok name) :: stack, .colon) .colon
      = some (.object read (.ok name) :: stack, .value) := rfl
  rw [run_cons, due, named, Option.bind_some, run_cons, marked, Option.bind_some, value]
  rfl

private theorem tokens_object (name : String) (x : Json) (rest : List (String × Json)) :
    (Json.object ((name, x) :: rest)).tokens
      = .openObject :: ((.string (name.toList.map piece) :: .colon :: x.tokens)
        ++ (fieldTokens rest ++ [.closeObject])) := rfl

private theorem fieldTokens_cons (name : String) (x : Json) (rest : List (String × Json)) :
    fieldTokens ((name, x) :: rest)
      = .comma :: ((.string (name.toList.map piece) :: .colon :: x.tokens)
        ++ fieldTokens rest) := rfl

mutual

private theorem run_tokens (x : Json) (exact : x.EachNumber Numeral.ReadsBack)
    (stack : List Frame) : run (stack, .value) x.tokens = some (place (ofJson x) stack) := by
  cases x with
  | null => rfl
  | bool b => rfl
  | number n =>
    obtain ⟨l, spelled, read⟩ := Option.bind_eq_some_iff.1 exact
    simp [tokens, spelled, run_cons, run_nil, step, startValue, scalarOfLexeme, read, ofJson]
  | string s => simp [tokens, run_cons, run_nil, step, startValue, join_string, ofJson]
  | array items =>
    cases items with
    | nil => rfl
    | cons x xs =>
      have opened : step (stack, .value) .openArray = some (.array [] :: stack, .firstItem) := rfl
      -- The first item is read in a phase of its own, in which the array may also end.
      have first : run (.array [] :: stack, .firstItem) x.tokens
          = some (.array [ofJson x] :: stack, .separator) :=
        (run_firstItem exact.1 _).trans (run_tokens x exact.1 _)
      have more := run_itemTokens xs exact.2 [ofJson x] stack
      have parts : ((ofItems xs).reverse ++ [ofJson x]).reverse = ofItems (x :: xs) := by
        simp [ofItems]
      have closed : step (.array ((ofItems xs).reverse ++ [ofJson x]) :: stack, .separator)
          .closeArray = some (place (.array (ofItems (x :: xs))) stack) := by
        simp only [step, close, parts]
      simp only [tokens, run_cons, run_append, opened, first, more, closed, Option.bind_some,
        run_nil, ofJson]
  | object fields =>
    cases fields with
    | nil => rfl
    | cons field rest =>
      obtain ⟨name, x⟩ := field
      have opened : step (stack, .value) .openObject
          = some (.object [] (.ok "") :: stack, .firstKey) := rfl
      have first : run (.object [] (.ok "") :: stack, .firstKey)
          (.string (name.toList.map piece) :: .colon :: x.tokens)
          = some (.object [(.ok name, ofJson x)] (.ok name) :: stack, .separator) :=
        run_field (fun _ => run_tokens x exact.1 _) fun _ => rfl
      obtain ⟨last, more⟩ :=
        run_fieldTokens rest exact.2 [(Except.ok name, ofJson x)] (.ok name) stack
      have parts : ((ofFields rest).reverse ++ [(Except.ok name, ofJson x)]).reverse
          = ofFields ((name, x) :: rest) := by
        simp [ofFields]
      have closed : step (.object ((ofFields rest).reverse ++ [(.ok name, ofJson x)]) last :: stack,
          .separator) .closeObject = some (place (.object (ofFields ((name, x) :: rest))) stack) := by
        simp only [step, close, parts]
      rw [tokens_object, run_cons, opened, Option.bind_some, run_append, first, Option.bind_some,
        run_append, more, Option.bind_some, run_cons, closed]
      rfl

private theorem run_itemTokens (xs : List Json) (exact : EachOfItems Numeral.ReadsBack xs)
    (read : List Draft) (stack : List Frame) :
    run (.array read :: stack, .separator) (itemTokens xs)
      = some (.array ((ofItems xs).reverse ++ read) :: stack, .separator) := by
  cases xs with
  | nil => rfl
  | cons x xs =>
    have marked : step (.array read :: stack, .separator) .comma
        = some (.array read :: stack, .value) := rfl
    have first : run (.array read :: stack, .value) x.tokens
        = some (.array (ofJson x :: read) :: stack, .separator) := run_tokens x exact.1 _
    have more := run_itemTokens xs exact.2 (ofJson x :: read) stack
    simp only [itemTokens, run_cons, run_append, marked, first, more, Option.bind_some, ofItems,
      List.reverse_cons, List.append_assoc, List.singleton_append]

private theorem run_fieldTokens (fields : List (String × Json))
    (exact : EachOfFields Numeral.ReadsBack fields)
    (read : List (Scalar String × Draft)) (key : Scalar String)
    (stack : List Frame) :
    ∃ last, run (.object read key :: stack, .separator) (fieldTokens fields)
      = some (.object ((ofFields fields).reverse ++ read) last :: stack, .separator) := by
  cases fields with
  | nil => exact ⟨key, rfl⟩
  | cons field rest =>
    obtain ⟨name, x⟩ := field
    have marked : step (.object read key :: stack, .separator) .comma
        = some (.object read key :: stack, .key) := rfl
    have first : run (.object read key :: stack, .key)
        (.string (name.toList.map piece) :: .colon :: x.tokens)
        = some (.object ((.ok name, ofJson x) :: read) (.ok name) :: stack, .separator) :=
      run_field (fun _ => run_tokens x exact.1 _) fun _ => rfl
    obtain ⟨last, more⟩ :=
      run_fieldTokens rest exact.2 ((.ok name, ofJson x) :: read) (.ok name) stack
    refine ⟨last, ?_⟩
    rw [fieldTokens_cons, run_cons, marked, Option.bind_some, run_append, first, Option.bind_some,
      more]
    simp [ofFields]

end

theorem ofText?_pretty {x : Json} (exact : x.EachNumber Numeral.ReadsBack) :
    ofText? (x.pretty 0) = some (ofJson x) := by
  have read : x.tokens.foldlM step ([], .value) = some (place (ofJson x) []) :=
    run_tokens x exact []
  rw [ofText?, Token.ofText?_pretty exact, Option.bind_some, ofTokens?, read]
  rfl

def Frame.InRange : Frame → Prop
  | .array items => ItemsInRange items
  | .object fields _ => FieldsInRange fields

def StateInRange (state : List Frame × Phase) : Prop :=
  (∀ frame ∈ state.1, frame.InRange) ∧ ∀ d, state.2 = .complete d → d.InRange

private theorem place_inRange {d : Draft} (held : d.InRange)
    (opened : ∀ frame ∈ stack, frame.InRange) : StateInRange (place d stack) := by
  cases stack with
  | nil =>
    refine ⟨nofun, fun other same => ?_⟩
    cases same
    exact held
  | cons frame stack =>
    obtain ⟨inner, outer⟩ := List.forall_mem_cons.1 opened
    cases frame with
    | array items => exact ⟨List.forall_mem_cons.2 ⟨⟨held, inner⟩, outer⟩, nofun⟩
    | object fields key => exact ⟨List.forall_mem_cons.2 ⟨⟨held, inner⟩, outer⟩, nofun⟩

private theorem scalarOfLexeme_inRange {l : Lexeme} {n : Numeral}
    (read : scalarOfLexeme l = .ok n) : n.InRange := by
  unfold scalarOfLexeme at read
  split at read
  · rename_i found
    cases read
    exact Lexeme.numeral?_inRange found
  · cases read

private theorem startValue_inRange {t : Token} {next : List Frame × Phase}
    (opened : ∀ frame ∈ stack, frame.InRange) (led : startValue stack t = some next) :
    StateInRange next := by
  cases t with
  | null | bool _ | string _ =>
    cases led
    exact place_inRange trivial opened
  | number l =>
    cases led
    exact place_inRange (fun _ => scalarOfLexeme_inRange) opened
  | openArray | openObject =>
    cases led
    exact ⟨List.forall_mem_cons.2 ⟨trivial, opened⟩, nofun⟩
  | closeArray | closeObject | comma | colon => cases led

private theorem close_inRange {t : Token} {next : List Frame × Phase}
    (opened : ∀ frame ∈ stack, frame.InRange) (led : close t stack = some next) :
    StateInRange next := by
  cases stack with
  | nil => cases led
  | cons frame stack =>
    obtain ⟨inner, outer⟩ := List.forall_mem_cons.1 opened
    cases frame with
    | array items =>
      cases t <;> cases led
      have turned : ItemsInRange items.reverse :=
        itemsInRange_iff.2 fun d held => itemsInRange_iff.1 inner d (List.mem_reverse.1 held)
      exact place_inRange turned outer
    | object fields key =>
      cases t <;> cases led
      have turned : FieldsInRange fields.reverse := fieldsInRange_iff.2 fun field held =>
        fieldsInRange_iff.1 inner field (List.mem_reverse.1 held)
      exact place_inRange turned outer

private theorem startKey_inRange {ps : List Piece} {next : List Frame × Phase}
    (opened : ∀ frame ∈ stack, frame.InRange) (led : startKey ps stack = some next) :
    StateInRange next := by
  rcases stack with _ | ⟨_ | ⟨fields, key⟩, stack⟩ <;> cases led
  obtain ⟨inner, outer⟩ := List.forall_mem_cons.1 opened
  exact ⟨List.forall_mem_cons.2 ⟨inner, outer⟩, nofun⟩

private theorem comma_inRange {next : List Frame × Phase} (opened : ∀ frame ∈ stack, frame.InRange)
    (led : comma stack = some next) : StateInRange next := by
  rcases stack with _ | ⟨_ | _, stack⟩ <;> cases led <;> exact ⟨opened, nofun⟩

private theorem step_inRange {state next : List Frame × Phase} {t : Token}
    (held : StateInRange state) (led : step state t = some next) : StateInRange next := by
  obtain ⟨stack, phase⟩ := state
  obtain ⟨opened, -⟩ := held
  simp only [step] at led
  split at led
  · exact startValue_inRange opened led
  · exact close_inRange opened led
  · exact startValue_inRange opened led
  · exact startKey_inRange opened led
  · exact startKey_inRange opened led
  · exact close_inRange opened led
  · cases led
    exact ⟨opened, nofun⟩
  · exact comma_inRange opened led
  · exact close_inRange opened led
  · cases led

private theorem run_inRange {state next : List Frame × Phase} {ts : List Token}
    (held : StateInRange state) (led : run state ts = some next) : StateInRange next := by
  induction ts generalizing state with
  | nil =>
    cases led
    exact held
  | cons t ts ih =>
    obtain ⟨middle, first, rest⟩ := Option.bind_eq_some_iff.1 ((run_cons state t ts).symm.trans led)
    exact ih (step_inRange held first) rest

/-- Whole numbers read from a text are in range. -/
theorem ofText?_inRange {text : String} {d : Draft} (read : ofText? text = some d) :
    d.InRange := by
  obtain ⟨ts, -, put⟩ := Option.bind_eq_some_iff.1 read
  obtain ⟨⟨stack, phase⟩, led, done⟩ := Option.bind_eq_some_iff.1 put
  have start : StateInRange ([], .value) := ⟨nofun, nofun⟩
  have held := run_inRange start led
  cases phase <;> cases done
  exact held.2 d rfl

end Draft

end Texture.Json
