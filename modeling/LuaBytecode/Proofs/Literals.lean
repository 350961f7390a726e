import Mathlib
import LuaBytecode.Chunk.Constant
import LuaBytecode.Proofs.Numerals
import LuaBytecode.Proofs.Utf8

/-!
Reading what is written for a constant. The literal of a byte string is read byte by byte, with the escapes
that a program may use, and gives the byte string back. The kind of every constant can be told from its
text, and the value of every constant that is not a float.
-/

namespace LuaBytecode

namespace Literal

/--
Where a reader of a short string literal stands: inside, behind a backslash, behind `\x` and its first
digit, or behind `\u`, its brace and its digits.
-/
inductive State where
  | start
  | inside
  | escape
  | byte
  | byteDigit (high : Nat)
  | point
  | pointStart
  | pointDigits (code : Nat)
  | closed
  deriving DecidableEq

def named? (letter : UInt8) : Option UInt8 :=
  if letter = Bytes.ofChar 'a' then some 0x07
  else if letter = Bytes.ofChar 'b' then some 0x08
  else if letter = Bytes.ofChar 'f' then some 0x0c
  else if letter = Bytes.ofChar 'n' then some 0x0a
  else if letter = Bytes.ofChar 'r' then some 0x0d
  else if letter = Bytes.ofChar 't' then some 0x09
  else if letter = Bytes.ofChar 'v' then some 0x0b
  else if letter = Bytes.ofChar '\\' then some 0x5c
  else if letter = Bytes.ofChar '"' then some 0x22
  else none

def hexDigit? (b : UInt8) : Option Nat :=
  (Numeral.digit? b).filter (· < 16)

def isBreak (b : UInt8) : Bool :=
  b == 0x0a || b == 0x0d

def step : State → UInt8 → Option (State × Bytes)
  | .start, b => if b = Bytes.ofChar '"' then some (.inside, []) else none
  | .inside, b =>
    if b = Bytes.ofChar '"' then some (.closed, [])
    else if b = Bytes.ofChar '\\' then some (.escape, [])
    -- A literal is closed on the line where it starts.
    else if isBreak b then none
    else some (.inside, [b])
  | .escape, b =>
    if b = Bytes.ofChar 'x' then some (.byte, [])
    else if b = Bytes.ofChar 'u' then some (.point, [])
    else (named? b).map fun value => (.inside, [value])
  | .byte, b => (hexDigit? b).map fun d => (.byteDigit d, [])
  | .byteDigit high, b => (hexDigit? b).map fun d => (.inside, [(16 * high + d).toUInt8])
  | .point, b => if b = Bytes.ofChar '\x7b' then some (.pointStart, []) else none
  | .pointStart, b => (hexDigit? b).map fun d => (.pointDigits d, [])
  | .pointDigits code, b =>
    if b = Bytes.ofChar '\x7d' then
      if code < 0x110000 then some (.inside, Utf8.encode code) else none
    else (hexDigit? b).map fun d => (.pointDigits (16 * code + d), [])
  | .closed, _ => none

def run (state : State) : Bytes → Option (State × Bytes)
  | [] => some (state, [])
  | b :: rest => do
    let (next, value) ← step state b
    let (last, more) ← run next rest
    return (last, value ++ more)

def read? (text : Bytes) : Option Bytes :=
  match run .start text with
  | some (.closed, value) => some value
  | _ => none

theorem run_cons {state next last : State} {b : UInt8} {rest value more : Bytes}
    (hstep : step state b = some (next, value)) (hrun : run next rest = some (last, more)) :
    run state (b :: rest) = some (last, value ++ more) := by
  rw [run, hstep]
  simp [hrun]

theorem run_append {state next last : State} {text rest value more : Bytes}
    (htext : run state text = some (next, value)) (hrest : run next rest = some (last, more)) :
    run state (text ++ rest) = some (last, value ++ more) := by
  induction text generalizing state value with
  | nil =>
    cases htext
    exact hrest
  | cons b text ih =>
    simp only [run, Option.bind_eq_bind, Option.bind_eq_some_iff, Prod.exists, Option.pure_def,
      Option.some.injEq, Prod.mk.injEq] at htext
    obtain ⟨mid, first, hstep, last', others, hrun, rfl, rfl⟩ := htext
    rw [List.cons_append, List.append_assoc]
    exact run_cons hstep (ih hrun)

theorem run_singleton {state next : State} {b : UInt8} {value : Bytes}
    (h : step state b = some (next, value)) : run state [b] = some (next, value) := by
  rw [run_cons h rfl, List.append_nil]

theorem step_break (state : State) {b : UInt8} (h : isBreak b) : step state b = none := by
  rw [isBreak, Bool.or_eq_true, beq_iff_eq, beq_iff_eq] at h
  rcases h with rfl | rfl <;> cases state <;> rfl

theorem isBreak_of_mem_run {state last : State} {text value : Bytes} {b : UInt8}
    (h : run state text = some (last, value)) (hmem : b ∈ text) : isBreak b = false := by
  induction text generalizing state value with
  | nil => cases hmem
  | cons b' text ih =>
    simp only [run, Option.bind_eq_bind, Option.bind_eq_some_iff, Prod.exists] at h
    obtain ⟨next, first, hstep, last', others, hrun, heq⟩ := h
    cases heq
    cases List.mem_cons.mp hmem with
    | inl hb =>
      rw [← Bool.not_eq_true]
      intro hbreak
      rw [← hb, step_break state hbreak] at hstep
      cases hstep
    | inr hb => exact ih hrun hb

theorem hexDigit?_ofDigit {d : Nat} (h : d < 16) : hexDigit? (Bytes.ofDigit d) = some d := by
  simp [hexDigit?, Bytes.digit?_ofDigit h, h]

theorem hex_two {n : Nat} (h : n < 256)
    : Bytes.hex 2 n = [Bytes.ofDigit (n / 16), Bytes.ofDigit (n % 16)] := by
  rw [Bytes.hex, Bytes.digits_eq_if (by decide)]
  split
  . next hn =>
    rw [Nat.div_eq_of_lt hn, Nat.mod_eq_of_lt hn]
    rfl
  . next hn =>
    rw [Bytes.digits_eq_if (by decide), if_pos (by omega)]
    rfl

theorem run_hex (byte : UInt8) :
    run .inside (utf8 "\\x" ++ Bytes.hex 2 byte.toNat) = some (.inside, [byte]) := by
  have hletter : run .inside (utf8 "\\x") = some (.byte, []) := rfl
  have hhigh : step .byte (Bytes.ofDigit (byte.toNat / 16)) = some (.byteDigit (byte.toNat / 16), []) := by
    have hlt : byte.toNat < 256 := byte.toNat_lt
    rw [step, hexDigit?_ofDigit (by omega)]
    rfl
  have hlow
      : step (.byteDigit (byte.toNat / 16)) (Bytes.ofDigit (byte.toNat % 16)) = some (.inside, [byte]) := by
    rw [step, hexDigit?_ofDigit (Nat.mod_lt _ (by decide)), Option.map_some, Nat.div_add_mod]
    simp
  rw [hex_two byte.toNat_lt]
  exact run_append hletter (run_cons hhigh (run_singleton hlow))

theorem run_digits (n : Nat) :
    run .pointStart (Bytes.digits 16 n) = some (.pointDigits n, []) := by
  -- The last digit is read in the state that the digits of `n / 16` lead to.
  induction n using Nat.strongRecOn with
  | ind n ih =>
    rw [Bytes.digits_eq_if (by decide)]
    split
    . next hn =>
      apply run_singleton
      rw [step, hexDigit?_ofDigit hn]
      rfl
    . next hn =>
      have hlast : n % 16 < 16 := Nat.mod_lt n (by decide)
      have hno : Bytes.ofDigit (n % 16) ≠ Bytes.ofChar '\x7d' := by
        generalize n % 16 = d at hlast
        interval_cases d <;> decide
      refine run_append (ih (n / 16) (by omega)) (run_singleton ?_)
      rw [step, if_neg hno, hexDigit?_ofDigit hlast, Option.map_some, Nat.div_add_mod]

theorem run_point {code : Nat} {encoding : Bytes} (h : Utf8.Encodes code encoding)
    : run .inside (utf8 "\\u\x7b" ++ Bytes.digits 16 code ++ utf8 "\x7d")
        =
      some (.inside, encoding) := by
  have hcode : code < 0x110000 := by
    have := Utf8.isValidChar_of_encodes h
    unfold Nat.isValidChar at this
    omega
  have hopen : run .inside (utf8 "\\u\x7b") = some (.pointStart, []) := rfl
  have hclose : run (.pointDigits code) (utf8 "\x7d") = some (.inside, encoding) := by
    apply run_singleton
    change (if code < 0x110000 then some (State.inside, Utf8.encode code) else none) = _
    rw [if_pos hcode, Utf8.encode_of_encodes h]
  exact run_append (run_append hopen (run_digits code)) hclose

theorem run_named {code : Nat} {letter : Char} {encoding : Bytes} (h : Utf8.Encodes code encoding)
    (hletter : Text.escapeLetter? code = some letter) :
    run .inside [Bytes.ofChar '\\', Bytes.ofChar letter] = some (.inside, encoding) := by
  rw [← Utf8.encode_of_encodes h]
  unfold Text.escapeLetter? at hletter
  split at hletter <;> cases hletter <;> rfl

theorem run_raw {text : Bytes}
    (h : ∀ b ∈ text, b ≠ Bytes.ofChar '"' ∧ b ≠ Bytes.ofChar '\\' ∧ isBreak b = false) :
    run .inside text = some (.inside, text) := by
  induction text with
  | nil => rfl
  | cons b text ih =>
    obtain ⟨hquote, hslash, hbreak⟩ := h b (List.mem_cons_self ..)
    have hstep : step .inside b = some (.inside, [b]) := by
      rw [step, if_neg hquote, if_neg hslash, hbreak]
      rfl
    exact run_cons hstep (ih fun b hb => h b (List.mem_cons_of_mem _ hb))

theorem run_encoding {code : Nat} {encoding : Bytes} (h : Utf8.Encodes code encoding)
    (hletter : Text.escapeLetter? code = none) : run .inside encoding = some (.inside, encoding) := by
  apply run_raw
  intro b hb
  -- What may not stand in a literal has an escape of its own.
  have hescaped : ∀ b' : UInt8, (Text.escapeLetter? b'.toNat).isSome → b'.toNat < 0x80 → b ≠ b' := by
    rintro b' hsome hlt rfl
    cases h.eq_or_le hb with
    | inl heq =>
      rw [heq, hletter] at hsome
      cases hsome
    | inr hle => omega
  refine ⟨hescaped _ (by decide) (by decide), hescaped _ (by decide) (by decide), ?_⟩
  simp [isBreak, hescaped 0x0a (by decide) (by decide), hescaped 0x0d (by decide) (by decide)]

theorem run_quoteSegment (raw : Nat → Bool) {segment : Utf8.Segment}
    (h : ∀ code encoding, segment = .scalar code encoding → Utf8.Encodes code encoding) :
    run .inside (Text.quoteSegment raw segment) = some (.inside, segment.bytes) := by
  -- One lemma for each form in which a segment is written.
  cases segment with
  | stray byte => exact run_hex byte
  | scalar code encoding =>
    have hencodes := h code encoding rfl
    rw [Text.quoteSegment, Utf8.Segment.bytes]
    split
    . next letter hletter => exact run_named hencodes hletter
    . next hletter =>
      split
      . exact run_encoding hencodes hletter
      . exact run_point hencodes

theorem run_segments (raw : Nat → Bool) {segments : List Utf8.Segment}
    (h : ∀ code encoding, .scalar code encoding ∈ segments → Utf8.Encodes code encoding)
    : run .inside (segments.flatMap (Text.quoteSegment raw))
        =
      some (.inside, segments.flatMap Utf8.Segment.bytes) := by
  induction segments with
  | nil => rfl
  | cons segment segments ih =>
    rw [List.flatMap_cons, List.flatMap_cons]
    refine run_append (run_quoteSegment raw ?_) (ih ?_)
    . rintro code encoding rfl
      exact h code encoding (List.mem_cons_self ..)
    . intro code encoding hmem
      exact h code encoding (List.mem_cons_of_mem _ hmem)

theorem run_quoted (raw : Nat → Bool) (bytes : Bytes)
    : run .inside ((Utf8.segments bytes).flatMap (Text.quoteSegment raw)) = some (.inside, bytes) := by
  have hencodes : ∀ code encoding, .scalar code encoding ∈ Utf8.segments bytes →
      Utf8.Encodes code encoding :=
    fun _ _ => Utf8.encodes_of_mem_segments
  rw [run_segments raw hencodes, Utf8.flatMap_segments]

theorem run_quote (raw : Nat → Bool) (bytes : Bytes) :
    run .start (Text.quote raw bytes) = some (.closed, bytes) := by
  have hclose : run .inside [Bytes.ofChar '"'] = some (.closed, []) := rfl
  have hopen : step .start (Bytes.ofChar '"') = some (.inside, []) := rfl
  have h := run_cons hopen (run_append (run_quoted raw bytes) hclose)
  rwa [List.append_nil] at h

theorem read?_quote (raw : Nat → Bool) (bytes : Bytes) :
    read? (Text.quote raw bytes) = some bytes := by
  rw [read?, run_quote]

example : read? (utf8 "\"\\u\x7b48\x7di\\x21\"") = some (utf8 "Hi!") := by decide

example : read? (utf8 "\"a\"b\"") = none := by decide

end Literal

theorem Decimal.lt_of_mem_digitsOf (n : Nat) : ∀ d ∈ digitsOf n, d < 10 := by
  intro d hd
  obtain ⟨c, hc, rfl⟩ := List.mem_map.mp hd
  have hrange := Bytes.toNat_of_mem_toDigits hc
  change c.toNat - 48 < 10
  omega

def numberChars : List Char :=
  -- The brackets and the stroke are those of `(0/0)`.
  ['0', '1', '2', '3', '4', '5', '6', '7', '8', '9', '.', 'e', '+', '-', '(', ')', '/']

def NumberText (text : String) : Prop :=
  ∀ c ∈ text.toList, c ∈ numberChars

instance (text : String) : Decidable (NumberText text) :=
  List.decidableBAll _ text.toList

namespace NumberText

theorem append {a b : String} (ha : NumberText a) (hb : NumberText b) : NumberText (a ++ b) := by
  intro c hc
  rw [String.toList_append, List.mem_append] at hc
  exact hc.elim (ha c) (hb c)

theorem ofList {chars : List Char} (h : ∀ c ∈ chars, c ∈ numberChars) :
    NumberText (String.ofList chars) := by
  rwa [NumberText, String.toList_ofList]

theorem digitText {digits : List Nat} (h : ∀ d ∈ digits, d < 10) :
    NumberText (FloatStyle.digitText digits) := by
  apply ofList
  intro c hc
  obtain ⟨d, hd, rfl⟩ := List.mem_map.mp hc
  have hlt := h d hd
  interval_cases d <;> decide

theorem placePoint {digits : List Nat} (n : Int) (h : ∀ d ∈ digits, d < 10) :
    NumberText (FloatStyle.placePoint digits n) := by
  have hzeros : ∀ k, ∀ d ∈ List.replicate k 0, d < 10 := by
    intro k d hd
    rw [List.eq_of_mem_replicate hd]
    decide
  unfold FloatStyle.placePoint
  split
  . exact .append (by decide) (digitText (List.forall_mem_append.mpr ⟨hzeros _, h⟩))
  . split
    . exact digitText (List.forall_mem_append.mpr ⟨h, hzeros _⟩)
    . refine .append (.append (digitText ?_) (by decide)) (digitText ?_)
      . exact fun d hd => h d (List.mem_of_mem_take hd)
      . exact fun d hd => h d (List.mem_of_mem_drop hd)

theorem render (style : FloatStyle) {d : Decimal} (h : ∀ digit ∈ d.digits, digit < 10) :
    NumberText (style.render d) := by
  have hsign : NumberText (if d.negative then "-" else "") := by
    split <;> decide
  have hpowerSign : NumberText (if d.exponent < 0 then "-" else "+") := by
    split <;> decide
  have hzeros : ∀ n, NumberText (String.ofList (List.replicate n '0')) := by
    intro n
    apply ofList
    intro c hc
    rw [List.eq_of_mem_replicate hc]
    decide
  rw [FloatStyle.render]
  split
  . exact hsign.append (placePoint _ h)
  . have hpower := digitText (Decimal.lt_of_mem_digitsOf d.exponent.natAbs)
    have hmantissa : NumberText "e" := by decide
    exact ((((hsign.append (placePoint 1 h)).append hmantissa).append hpowerSign).append (hzeros _)).append
      hpower

end NumberText

theorem Decimal.lt_of_mem_shortest (negative : Bool) (mantissa : Nat) (exponent : Int) :
    ∀ d ∈ (shortest negative mantissa exponent).digits, d < 10 := by
  intro d hd
  unfold shortest at hd
  split at hd
  . rw [List.mem_singleton.mp hd]
    decide
  . have hdigit := (List.dropWhile_sublist _).mem (List.mem_reverse.mp hd)
    exact lt_of_mem_digitsOf _ d (List.mem_reverse.mp hdigit)

namespace Binary64

theorem numberText_literal (x : Binary64) : NumberText x.literal := by
  unfold literal
  split
  . decide
  . decide
  . decide
  . next hvalue =>
    have htext : NumberText x.text := by
      rw [text, hvalue]
      exact .render _ (Decimal.lt_of_mem_shortest _ _ _)
    split
    . exact htext
    . exact htext.append (by decide)

theorem exists_mark_literal (x : Binary64) : ∃ c ∈ x.literal.toList, c = '.' ∨ c = 'e' ∨ c = '(' := by
  unfold literal
  split
  . exact ⟨'(', by decide, .inr (.inr rfl)⟩
  . exact ⟨'e', by decide, .inr (.inl rfl)⟩
  . exact ⟨'e', by decide, .inr (.inl rfl)⟩
  . split
    . next hmark =>
      obtain ⟨c, hc, hmark⟩ := List.any_eq_true.mp hmark
      rw [Bool.or_eq_true, beq_iff_eq, beq_iff_eq] at hmark
      exact ⟨c, hc, hmark.imp_right .inl⟩
    . refine ⟨'.', ?_, .inl rfl⟩
      rw [String.toList_append]
      exact List.mem_append_right _ (by decide)

theorem utf8_literal (x : Binary64) : utf8 x.literal = x.literal.toList.map Bytes.ofChar := by
  have hascii : ∀ c ∈ numberChars, c.toNat < 0x80 := by simp [numberChars]
  have h := utf8_ofList_of_ascii fun c hc => hascii c (x.numberText_literal c hc)
  rwa [String.ofList_toList] at h

end Binary64

namespace Constant

def kindOfText (text : Bytes) : ConstantKind :=
  if Bytes.ofChar '"' ∈ text then .string
  else if Bytes.ofChar 'n' ∈ text then .nil
  else if Bytes.ofChar 't' ∈ text ∨ Bytes.ofChar 'f' ∈ text then .boolean
  else if Bytes.ofChar '.' ∈ text ∨ Bytes.ofChar 'e' ∈ text ∨ Bytes.ofChar '(' ∈ text then .float
  else .integer

theorem kindOfText_integer (value : Int64) : kindOfText (text (.integer value)) = .integer := by
  have hno : ∀ b : UInt8, ¬(b = Bytes.ofChar '-' ∨ 48 ≤ b.toNat ∧ b.toNat ≤ 57) →
      b ∉ Bytes.decimal value.toInt :=
    fun b hb hmem => hb (Bytes.mem_decimal hmem)
  rw [kindOfText, text, if_neg (hno _ (by decide)), if_neg (hno _ (by decide)), if_neg, if_neg]
  . simp only [not_or]
    exact ⟨hno _ (by decide), hno _ (by decide), hno _ (by decide)⟩
  . simp only [not_or]
    exact ⟨hno _ (by decide), hno _ (by decide)⟩

theorem kindOfText_float (value : Binary64) : kindOfText (text (.float value)) = .float := by
  have hno : ∀ b ∉ numberChars.map Bytes.ofChar, b ∉ utf8 value.literal := by
    intro b hb hmem
    rw [value.utf8_literal] at hmem
    exact hb (List.map_subset _ value.numberText_literal hmem)
  rw [kindOfText, text, if_neg (hno _ (by decide)), if_neg (hno _ (by decide)), if_neg, if_pos]
  . obtain ⟨c, hc, hmark⟩ := value.exists_mark_literal
    have hmem : Bytes.ofChar c ∈ utf8 value.literal := by
      rw [value.utf8_literal]
      exact List.mem_map_of_mem hc
    rcases hmark with rfl | rfl | rfl
    . exact .inl hmem
    . exact .inr (.inl hmem)
    . exact .inr (.inr hmem)
  . simp only [not_or]
    exact ⟨hno _ (by decide), hno _ (by decide)⟩

theorem kindOfText_text (c : Constant) : kindOfText c.text = c.kind := by
  cases c with
  | nil => decide
  | boolean value => cases value <;> decide
  | integer value => exact kindOfText_integer value
  | float value => exact kindOfText_float value
  | string value long => exact if_pos (List.mem_cons_self ..)

def shortened : Constant → Constant
  | .string value _ => .string value false
  | c => c

theorem kind_eq_of_text_eq {c₁ c₂ : Constant} (h : c₁.text = c₂.text) : c₁.kind = c₂.kind := by
  rw [← kindOfText_text, h, kindOfText_text]

theorem shortened_eq_of_text_eq {c₁ c₂ : Constant} (h : c₁.text = c₂.text) (hfloat : c₁.kind ≠ .float) :
    c₁.shortened = c₂.shortened := by
  have hkind := kind_eq_of_text_eq h
  cases c₁ with
  | nil =>
    cases c₂ <;> cases hkind
    rfl
  | boolean v₁ =>
    cases c₂ with
    | boolean v₂ =>
      revert h
      cases v₁ <;> cases v₂ <;> decide
    | _ => cases hkind
  | integer v₁ =>
    cases c₂ with
    | integer v₂ => rw [Int64.toInt_inj.mp (Bytes.decimal_inj h)]
    | _ => cases hkind
  | float v₁ => exact absurd rfl hfloat
  | string v₁ long₁ =>
    cases c₂ with
    | string v₂ long₂ =>
      have hread := congrArg Literal.read? h
      rw [text, text, Literal.read?_quote, Literal.read?_quote, Option.some.injEq] at hread
      rw [shortened, shortened, hread]
    | _ => cases hkind

/--
Constants are written faithfully. Whatever characters are written as they are, the literal of a byte string
stands between two quotes, has no line break, and is read as that byte string. Constants with the same text
are of one kind, and unless they are floats they differ at most in the mark of a long string.
-/
theorem text_faithful
    : (∀ (raw : Nat → Bool) (bytes : Bytes),
        (∃ body, Text.quote raw bytes = Bytes.ofChar '"' :: body ++ [Bytes.ofChar '"']
          ∧ Literal.run .inside body = some (.inside, bytes))
        ∧ Literal.read? (Text.quote raw bytes) = some bytes
        ∧ ∀ b ∈ Text.quote raw bytes, Literal.isBreak b = false)
      ∧ ∀ c₁ c₂ : Constant, c₁.text = c₂.text →
          c₁.kind = c₂.kind ∧ (c₁.kind ≠ .float → c₁.shortened = c₂.shortened) := by
  constructor
  . intro raw bytes
    refine ⟨⟨_, rfl, Literal.run_quoted raw bytes⟩, Literal.read?_quote raw bytes, ?_⟩
    intro b hb
    exact Literal.isBreak_of_mem_run (Literal.run_quote raw bytes) hb
  . intro c₁ c₂ h
    exact ⟨kind_eq_of_text_eq h, shortened_eq_of_text_eq h⟩

theorem text_faithful_stray
    : Literal.read? (Text.quote Text.isPrintable [0x22, 0xff, 0x0a]) = some [0x22, 0xff, 0x0a]
      ∧ shortened (.string [0xff] true) = shortened (.string [0xff] false) := by
  obtain ⟨hquote, htext⟩ := text_faithful
  exact ⟨(hquote _ _).2.1, (htext (.string [0xff] true) (.string [0xff] false) rfl).2 (by decide)⟩

end Constant

end LuaBytecode
