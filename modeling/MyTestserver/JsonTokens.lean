import MyTestserver.JsonLexing
import MyTestserver.StatementTheorems

namespace MyTestserver

section Decimal

-- The decimal text of a number is the same whether the library or std::to_string writes it.

theorem ascii_ofList (chars : List Char) :
    ascii (String.ofList chars) = chars.flatMap String.utf8EncodeChar := by
  simp [ascii, List.utf8Encode]

theorem ascii_digits {chars : List Char} (h : ∀ c ∈ chars, c.toNat ≤ 57) :
    chars.flatMap String.utf8EncodeChar = chars.map fun c => UInt8.ofNat c.toNat := by
  induction chars with
  | nil => rfl
  | cons c chars ih =>
      obtain ⟨hc, hchars⟩ := List.forall_mem_cons.mp h
      have hone : c.val.toNat ≤ 0x7F := Nat.le_trans hc (by decide)
      have hchar : String.utf8EncodeChar c = [UInt8.ofNat c.toNat] := by
        unfold String.utf8EncodeChar
        exact if_pos hone
      rw [List.flatMap_cons, hchar, ih hchars]
      rfl

theorem ascii_toString_nat (n : ℕ) : ascii (toString n) = toDigits n := by
  rw [Nat.toString_eq_ofList_toDigits, ascii_ofList, toDigits]
  exact ascii_digits fun c hc => (toNat_of_mem_toDigits hc).2

theorem ascii_append (text text' : String) : ascii (text ++ text') = ascii text ++ ascii text' := by
  simp [ascii]

theorem ascii_toString_int (n : ℤ) : ascii (toString n) = toDecimal n := by
  cases n with
  | ofNat n => exact ascii_toString_nat n
  | negSucc n =>
      have htext : toString (Int.negSucc n) = "-" ++ toString (n + 1) := rfl
      rw [htext, ascii_append, ascii_toString_nat]
      rfl

-- No leading zero.
theorem toDigits_pos {n : ℕ} (h : 0 < n) :
    ∃ digit digits, toDigits n = digit :: digits ∧ digit ≠ 48 := by
  induction n using Nat.strongRecOn with
  | ind n ih =>
      by_cases hlt : n < 10
      · refine ⟨UInt8.ofNat (Nat.digitChar n).toNat, [], ?_, ?_⟩
        · rw [toDigits, Nat.toDigits_of_lt_base hlt]
          rfl
        · have hall : ∀ m < 10, 0 < m → UInt8.ofNat (Nat.digitChar m).toNat ≠ 48 := by decide
          exact hall n hlt h
      · obtain ⟨digit, digits, hdigits, hne⟩ := ih (n / 10) (by omega) (by omega)
        refine ⟨digit, digits ++ [UInt8.ofNat (Nat.digitChar (n % 10)).toNat], ?_, hne⟩
        rw [toDigits, Nat.toDigits_of_base_le (by decide) (by omega), List.map_append,
          ← List.cons_append, ← hdigits]
        rfl

theorem toDigits_zero : toDigits 0 = [48] := by decide

theorem atoi_minus (digits : Bytes) : atoi (45 :: digits) = -digitsValue digits := rfl

end Decimal

namespace Json

section WellFormed

mutual

-- A property of a value and of every value in it.
def all (p : Json → Bool) : Json → Bool
  | .array items => p (.array items) && allItems p items
  | .object members => p (.object members) && allMembers p members
  | j => p j

def allItems (p : Json → Bool) : List Json → Bool
  | [] => true
  | item :: items => item.all p && allItems p items

def allMembers (p : Json → Bool) : List (Bytes × Json) → Bool
  | [] => true
  | (_, item) :: members => item.all p && allMembers p members

end

-- What the number types of basic_json hold, and what a std::map is.

def fits : Json → Bool
  | .number_integer n => -2 ^ 63 ≤ n ∧ n < 2 ^ 63
  | .number_unsigned n => n < 2 ^ 64
  | _ => true

def isSorted : Json → Bool
  | .object members => (members.map Prod.fst).Pairwise (· < ·)
  | _ => true

structure WellFormed (j : Json) : Prop where
  fits : j.all fits = true
  sorted : j.all isSorted = true

instance (j : Json) : Decidable j.WellFormed :=
  decidable_of_iff (j.all fits = true ∧ j.all isSorted = true)
    ⟨fun h => ⟨h.1, h.2⟩, fun h => ⟨h.fits, h.sorted⟩⟩

def isExact : Json → Bool
  | .number_float _ => false
  | _ => true

-- No float anywhere.
def Exact (j : Json) : Prop := j.all isExact = true

instance (j : Json) : Decidable j.Exact := by
  unfold Exact
  infer_instance

variable {p : Json → Bool}

theorem allItems_iff (items : List Json) :
    allItems p items = true ↔ ∀ item ∈ items, item.all p := by
  induction items with
  | nil => simp [allItems]
  | cons item items ih => simp [allItems, ih]

theorem allMembers_iff (members : List (Bytes × Json)) :
    allMembers p members = true ↔ ∀ member ∈ members, member.2.all p := by
  induction members with
  | nil => simp [allMembers]
  | cons member members ih => simp [allMembers, ih]

theorem all_array_iff {items : List Json} :
    (array items).all p ↔ p (.array items) ∧ ∀ item ∈ items, item.all p := by
  rw [all, Bool.and_eq_true, allItems_iff]

theorem all_object_iff {members : List (Bytes × Json)} :
    (object members).all p ↔ p (.object members) ∧ ∀ member ∈ members, member.2.all p := by
  rw [all, Bool.and_eq_true, allMembers_iff]

theorem utf8_object_iff {members : List (Bytes × Json)} :
    (object members).Utf8 ↔ ∀ member ∈ members, ValidUtf8 member.1 ∧ member.2.Utf8 := by
  have hmembers : utf8Members members = true ↔
      ∀ member ∈ members, ValidUtf8 member.1 ∧ member.2.Utf8 := by
    induction members with
    | nil => simp [utf8Members]
    | cons member members ih =>
        obtain ⟨key, item⟩ := member
        rw [utf8Members_cons, ih, List.forall_mem_cons, and_assoc]
  exact hmembers

-- The values in an array or an object come before it.
@[elab_as_elim]
theorem induct {motive : Json → Prop} (null : motive .null)
    (boolean : ∀ value, motive (.boolean value))
    (number_integer : ∀ value, motive (.number_integer value))
    (number_unsigned : ∀ value, motive (.number_unsigned value))
    (number_float : ∀ asInt, motive (.number_float asInt))
    (string : ∀ value, motive (.string value))
    (array : ∀ items, (∀ item ∈ items, motive item) → motive (.array items))
    (object : ∀ members, (∀ member ∈ members, motive member.2) → motive (.object members)) :
    ∀ j, motive j :=
  @Json.rec motive (fun items => ∀ item ∈ items, motive item)
    (fun members => ∀ member ∈ members, motive member.2) (fun member => motive member.2)
    null boolean number_integer number_unsigned number_float string array object
    (List.forall_mem_nil _) (fun _ _ hitem hitems => List.forall_mem_cons.mpr ⟨hitem, hitems⟩)
    (List.forall_mem_nil _)
    (fun _ _ hmember hmembers => List.forall_mem_cons.mpr ⟨hmember, hmembers⟩)
    (fun _ _ hitem => hitem)

-- What a value has to meet to be read back from what it is written as.
structure Readable (j : Json) : Prop where
  utf8 : j.Utf8
  fits : j.all Json.fits = true
  exact : j.Exact

theorem Readable.item {items : List Json} {item : Json} (h : (array items).Readable)
    (hitem : item ∈ items) : item.Readable where
  utf8 := utf8_array_iff.mp h.utf8 item hitem
  fits := (all_array_iff.mp h.fits).2 item hitem
  exact := (all_array_iff.mp h.exact).2 item hitem

theorem Readable.member {members : List (Bytes × Json)} {member : Bytes × Json}
    (h : (object members).Readable) (hmember : member ∈ members) :
    ValidUtf8 member.1 ∧ member.2.Readable :=
  ⟨(utf8_object_iff.mp h.utf8 member hmember).1, {
    utf8 := (utf8_object_iff.mp h.utf8 member hmember).2
    fits := (all_object_iff.mp h.fits).2 member hmember
    exact := (all_object_iff.mp h.exact).2 member hmember }⟩

end WellFormed

-- What a token can carry: strings are UTF-8, and numbers fit.
def Token.Sound : Token → Prop
  | .value_string value => ValidUtf8 value
  | .value_unsigned value => value < 2 ^ 64
  | .value_integer value => -2 ^ 63 ≤ value ∧ value < 2 ^ 63
  | _ => True

def Token.isLast : Token → Bool
  | .parse_error | .end_of_input => true
  | _ => false

namespace Lexer

variable (strtod : Bytes → Option Int32)

section Numbers

variable {state : NumberState} {numberType : NumberType}
  {tokenBuffer tokenBuffer' text rest : Bytes}

-- A digit is no other character that a number can go on with.
theorem next_any1 {digit : UInt8} (h : isDigit digit = true) :
    NumberState.any1.next digit = some .any1 := if_pos h

theorem next_minus {digit : UInt8} (h : isDigit digit = true) (hzero : digit ≠ 48) :
    NumberState.minus.next digit = some .any1 := by
  rw [NumberState.next, if_neg hzero, if_pos h]

-- What follows a value that is written: the end, or a sign of an array or an object.
def Ends (rest : Bytes) : Prop := ∀ byte ∈ rest.head?, byte = 44 ∨ byte = 93 ∨ byte = 125

theorem ends_nil : Ends [] := fun _ h => by cases h

theorem ends_cons {byte : UInt8} (h : byte = 44 ∨ byte = 93 ∨ byte = 125) (rest : Bytes) :
    Ends (byte :: rest) := fun _ hbyte => Option.some.inj hbyte ▸ h

theorem scanNumberFrom_ends (h : Ends rest) (hstate : state = .zero ∨ state = .any1) :
    scanNumberFrom state numberType tokenBuffer rest = some (numberType, tokenBuffer, rest) := by
  have hdone : state.done = true := by
    obtain rfl | rfl := hstate <;> rfl
  cases rest with
  | nil => exact if_pos hdone
  | cons byte rest =>
      have hnext : state.next byte = none := by
        obtain rfl | rfl := hstate <;> obtain rfl | rfl | rfl := h byte rfl <;> rfl
      simp only [scanNumberFrom, hnext, if_pos hdone]

theorem scanNumberFrom_digits (digits : Bytes) (tokenBuffer : Bytes)
    (hdigits : ∀ digit ∈ digits, isDigit digit = true) (h : Ends rest) :
    scanNumberFrom .any1 numberType tokenBuffer (digits ++ rest) =
      some (numberType, tokenBuffer ++ digits, rest) := by
  induction digits generalizing tokenBuffer with
  | nil => rw [List.append_nil]; exact scanNumberFrom_ends h (.inr rfl)
  | cons digit digits ih =>
      obtain ⟨hdigit, hdigits⟩ := List.forall_mem_cons.mp hdigits
      rw [List.cons_append, scanNumberFrom, next_any1 hdigit]
      dsimp only
      rw [NumberState.type, ih _ hdigits, List.append_assoc]
      rfl

theorem scanNumber_toDigits (n : ℕ) (hn : n < 2 ^ 64) (h : Ends rest) :
    ∃ digit digits, toDigits n = digit :: digits ∧ isDigit digit = true ∧
      scanNumber strtod digit (digits ++ rest) = (.value_unsigned n, rest) := by
  have hvalue : toNumber strtod .value_unsigned (toDigits n) = .value_unsigned n := by
    rw [toNumber, strtoull, digitsValue_toDigits, if_pos hn]
  obtain rfl | hpos := Nat.eq_zero_or_pos n
  · refine ⟨48, [], toDigits_zero, rfl, ?_⟩
    rw [toDigits_zero] at hvalue
    unfold scanNumber
    rw [if_neg (by decide), if_pos rfl, List.nil_append, scanNumberFrom_ends h (.inl rfl)]
    dsimp only
    rw [hvalue]
  · obtain ⟨digit, digits, hdigits, hne⟩ := toDigits_pos hpos
    have hall : ∀ digit ∈ toDigits n, isDigit digit = true := fun _ => isDigit_of_mem_toDigits
    rw [hdigits] at hall
    obtain ⟨hdigit, hall⟩ := List.forall_mem_cons.mp hall
    have hminus : digit ≠ 45 := by
      rintro rfl
      exact absurd hdigit (by decide)
    refine ⟨digit, digits, hdigits, hdigit, ?_⟩
    unfold scanNumber
    rw [if_neg hminus, if_neg hne, scanNumberFrom_digits digits [digit] hall h]
    dsimp only
    rw [List.singleton_append, ← hdigits, hvalue]

theorem scanNumber_minus (n : ℕ) (hn : n < 2 ^ 63) (h : Ends rest) :
    scanNumber strtod 45 (toDigits (n + 1) ++ rest) = (.value_integer (Int.negSucc n), rest) := by
  have hneg : (-(n + 1 : ℕ) : ℤ) = Int.negSucc n := rfl
  have hvalue : toNumber strtod .value_integer (45 :: toDigits (n + 1)) =
      .value_integer (Int.negSucc n) := by
    rw [toNumber, strtoll, atoi_minus, digitsValue_toDigits, if_pos (by omega), hneg]
  obtain ⟨digit, digits, hdigits, hne⟩ := toDigits_pos (Nat.succ_pos n)
  have hall : ∀ digit ∈ toDigits (n + 1), isDigit digit = true := fun _ => isDigit_of_mem_toDigits
  rw [hdigits] at hall
  obtain ⟨hdigit, hall⟩ := List.forall_mem_cons.mp hall
  unfold scanNumber
  rw [if_pos rfl, hdigits, List.cons_append, scanNumberFrom, next_minus hdigit hne]
  dsimp only
  rw [NumberState.type, scanNumberFrom_digits digits _ hall h]
  dsimp only
  rw [List.append_assoc, List.singleton_append, List.singleton_append, ← hdigits, hvalue]

-- The characters of a number are left, or read.
theorem scanNumberFrom_length {numberType' : NumberType}
    (h : scanNumberFrom state numberType tokenBuffer text = some (numberType', tokenBuffer', rest)) :
    rest.length ≤ text.length := by
  induction text generalizing state numberType tokenBuffer with
  | nil =>
      simp only [scanNumberFrom] at h
      split at h
      · cases h
        exact le_rfl
      · cases h
  | cons byte text ih =>
      simp only [scanNumberFrom] at h
      split at h
      · exact Nat.le_succ_of_le (ih h)
      split at h
      · cases h
        exact le_rfl
      · cases h

end Numbers

section Scan

variable {token : Token} {text rest : Bytes}

theorem sound_toNumber (numberType : NumberType) (tokenBuffer : Bytes) :
    (toNumber strtod numberType tokenBuffer).Sound ∧
      (toNumber strtod numberType tokenBuffer).isLast = false := by
  cases numberType with
  | value_unsigned =>
      simp only [toNumber, strtoull]
      split_ifs with h
      · exact ⟨h, rfl⟩
      · exact ⟨trivial, rfl⟩
  | value_integer =>
      simp only [toNumber, strtoll]
      split_ifs with h
      · exact ⟨h, rfl⟩
      · exact ⟨trivial, rfl⟩
  | value_float => exact ⟨trivial, rfl⟩

-- What reading a token off a text leaves, behind an error nothing.
def Leaves (text : Bytes) (read : Token × Bytes) : Prop :=
  read.1.Sound ∧ (read.1.isLast = false → read.2.length ≤ text.length)

theorem leaves_error (text : Bytes) : Leaves text (.parse_error, []) :=
  ⟨trivial, fun hlast => by cases hlast⟩

theorem leaves_scanNumber (current : UInt8) (text : Bytes) :
    Leaves text (scanNumber strtod current text) := by
  unfold scanNumber
  dsimp only
  split
  · rename_i numberType tokenBuffer behind hscanned
    refine ⟨(sound_toNumber strtod numberType tokenBuffer).1, fun _ => ?_⟩
    split_ifs at hscanned
    all_goals exact scanNumberFrom_length hscanned
  · exact leaves_error text

theorem leaves_scanLiteral (literal : Bytes) (type : Token) (htype : type.Sound) (text : Bytes) :
    Leaves text (scanLiteral literal type text) := by
  unfold scanLiteral
  split
  · refine ⟨htype, fun _ => ?_⟩
    rw [List.length_drop]
    exact Nat.sub_le _ _
  · exact leaves_error text

theorem leaves_scanString (text : Bytes) :
    Leaves text (match scanString text.length [] text with
      | some (tokenBuffer, rest) => (.value_string tokenBuffer, rest)
      | none => (.parse_error, [])) := by
  split
  · rename_i tokenBuffer rest hstring
    obtain ⟨hlt, hvalid⟩ := scanString_spec hstring (validUtf8_ascii "")
    exact ⟨hvalid, fun _ => Nat.le_of_lt hlt⟩
  · exact leaves_error text

-- Every token but the last takes at least a byte.
theorem scan_spec (text : Bytes) : (scan strtod text).1.Sound ∧
    ((scan strtod text).1.isLast = false → (scan strtod text).2.length < text.length) := by
  unfold scan
  have hblank : (text.dropWhile isWhitespace).length ≤ text.length :=
    (List.dropWhile_sublist _).length_le
  split
  · exact ⟨trivial, fun hlast => by cases hlast⟩
  rename_i current behind hbehind
  rw [hbehind, List.length_cons] at hblank
  have hleaves : ∀ {read}, Leaves behind read →
      read.1.Sound ∧ (read.1.isLast = false → read.2.length < text.length) := fun hread =>
    ⟨hread.1, fun hlast => Nat.lt_of_lt_of_le (Nat.lt_succ_of_le (hread.2 hlast)) hblank⟩
  apply hleaves
  iterate 6
    refine iteInduction (motive := Leaves behind) (fun _ => ⟨trivial, fun _ => le_rfl⟩) fun _ => ?_
  refine iteInduction (motive := Leaves behind)
    (fun _ => leaves_scanLiteral _ .literal_true trivial behind) fun _ => ?_
  refine iteInduction (motive := Leaves behind)
    (fun _ => leaves_scanLiteral _ .literal_false trivial behind) fun _ => ?_
  refine iteInduction (motive := Leaves behind)
    (fun _ => leaves_scanLiteral _ .literal_null trivial behind) fun _ => ?_
  refine iteInduction (motive := Leaves behind) (fun _ => leaves_scanString behind) fun _ => ?_
  refine iteInduction (motive := Leaves behind) (fun _ => leaves_scanNumber strtod _ _) fun _ => ?_
  refine iteInduction (motive := Leaves behind) (fun _ => ?_) fun _ => leaves_error behind
  exact ⟨trivial, fun hlast => by cases hlast⟩

end Scan

section Written

variable {rest : Bytes}

theorem scan_number {current : UInt8} (h : current = 45 ∨ isDigit current = true) (rest : Bytes) :
    scan strtod (current :: rest) = scanNumber strtod current rest := by
  have hne : ∀ other : UInt8, other ≠ 45 → isDigit other = false → current ≠ other := by
    rintro other hminus hdigit rfl
    obtain rfl | h := h
    · exact hminus rfl
    · exact absurd h (hdigit ▸ Bool.false_ne_true)
  have hblank : isWhitespace current = false := by
    simp [isWhitespace, hne 32, hne 9, hne 10, hne 13, isDigit]
  unfold scan
  rw [List.dropWhile_cons_of_neg (by simp [hblank])]
  dsimp only
  rw [if_neg (hne 91 (by decide) (by decide)), if_neg (hne 93 (by decide) (by decide)),
    if_neg (hne 123 (by decide) (by decide)), if_neg (hne 125 (by decide) (by decide)),
    if_neg (hne 58 (by decide) (by decide)), if_neg (hne 44 (by decide) (by decide)),
    if_neg (hne 116 (by decide) (by decide)), if_neg (hne 102 (by decide) (by decide)),
    if_neg (hne 110 (by decide) (by decide)), if_neg (hne 34 (by decide) (by decide)), if_pos h]

theorem scan_toDigits (n : ℕ) (hn : n < 2 ^ 64) (h : Ends rest) :
    scan strtod (toDigits n ++ rest) = (.value_unsigned n, rest) := by
  obtain ⟨digit, digits, hdigits, hdigit, hscan⟩ := scanNumber_toDigits strtod n hn h
  rw [hdigits, List.cons_append, scan_number strtod (.inr hdigit), hscan]

theorem scan_minus (n : ℕ) (hn : n < 2 ^ 63) (h : Ends rest) :
    scan strtod (toDecimal (.negSucc n) ++ rest) = (.value_integer (.negSucc n), rest) := by
  have htext : toDecimal (.negSucc n) = 45 :: toDigits (n + 1) := by
    rw [toDecimal]
    rfl
  rw [htext, List.cons_append, scan_number strtod (.inl rfl), scanNumber_minus strtod n hn h]

theorem scan_renderString {value : Bytes} (h : ValidUtf8 value) (rest : Bytes) :
    scan strtod (renderString value ++ rest) = (.value_string value, rest) := by
  obtain ⟨chars, rfl⟩ := (Utf8.isValidUTF8_iff value).mp h
  have htext : renderString (chars.flatMap String.utf8EncodeChar) ++ rest =
      34 :: ((chars.flatMap String.utf8EncodeChar).flatMap escapeByte ++ 34 :: rest) := by
    simp [renderString]
  rw [htext]
  generalize hbehind : (chars.flatMap String.utf8EncodeChar).flatMap escapeByte ++ 34 :: rest =
    behind
  have hlength :
      ((chars.flatMap String.utf8EncodeChar).flatMap escapeByte).length < behind.length := by
    rw [← hbehind, List.length_append, List.length_cons]
    omega
  have hread := scanString_flatMap chars [] rest hlength
  rw [hbehind] at hread
  have hscan : scan strtod (34 :: behind) = match scanString behind.length [] behind with
      | some (tokenBuffer, rest) => (.value_string tokenBuffer, rest)
      | none => (.parse_error, []) := rfl
  rw [hscan, hread]
  rfl

end Written

section Lexes

-- The tokens that a text begins with, and what is left behind them.
inductive Lexes : Bytes → List Token → Bytes → Prop
  | nil (text : Bytes) : Lexes text [] text
  | cons {text rest last : Bytes} {token : Token} {tokens : List Token} :
      scan strtod text = (token, rest) → token.isLast = false → Lexes rest tokens last →
        Lexes text (token :: tokens) last

variable {strtod : Bytes → Option Int32} {text rest last : Bytes} {token : Token}
  {tokens tokens' : List Token}

theorem Lexes.single (h : scan strtod text = (token, rest)) (hlast : token.isLast = false) :
    Lexes strtod text [token] rest :=
  .cons h hlast (.nil rest)

theorem Lexes.append (h : Lexes strtod text tokens rest) (h' : Lexes strtod rest tokens' last) :
    Lexes strtod text (tokens ++ tokens') last := by
  induction h with
  | nil => exact h'
  | cons hscan hlast _ ih => exact .cons hscan hlast (ih h')

theorem Lexes.length (h : Lexes strtod text tokens rest) :
    tokens.length + rest.length ≤ text.length := by
  induction h with
  | nil => rw [List.length_nil, Nat.zero_add]
  | @cons text rest last token tokens hscan hlast _ ih =>
      have hlt : rest.length < text.length := by
        have hspec := (scan_spec strtod text).2
        rw [hscan] at hspec
        exact hspec hlast
      rw [List.length_cons]
      omega

theorem Lexes.scanTokens (h : Lexes strtod text tokens rest) (rounds : ℕ) :
    scanTokens strtod (tokens.length + rounds) text = tokens ++ scanTokens strtod rounds rest := by
  induction h with
  | nil => rw [List.length_nil, Nat.zero_add, List.nil_append]
  | @cons text rest last token tokens hscan hlast _ ih =>
      have hrounds : (token :: tokens).length + rounds = tokens.length + rounds + 1 := by
        rw [List.length_cons]
        omega
      have hstep : Lexer.scanTokens strtod (tokens.length + rounds + 1) text =
          token :: Lexer.scanTokens strtod (tokens.length + rounds) rest := by
        cases token with
        | parse_error => cases hlast
        | end_of_input => cases hlast
        | _ => rw [Lexer.scanTokens, hscan]
      rw [hrounds, hstep, ih, List.cons_append]

-- No token begins like a byte order mark.
theorem Lexes.skipBom (h : Lexes strtod text tokens []) : skipBom text = some text := by
  unfold Lexer.skipBom
  split
  · rename_i rest
    obtain _ | ⟨hscan, hlast, -⟩ := h
    have herror : scan strtod (0xEF :: rest) = (.parse_error, []) := rfl
    cases herror.symm.trans hscan
    cases hlast
  · rfl

-- A text that is lexed to its end.
theorem Lexes.tokens_eq (h : Lexes strtod text tokens []) :
    Lexer.tokens strtod text = tokens ++ [.end_of_input] := by
  obtain ⟨rounds, hrounds⟩ := Nat.exists_eq_add_of_le h.length
  have hlength : text.length + 1 = tokens.length + (rounds + 1) := by
    rw [hrounds, List.length_nil]
    omega
  unfold Lexer.tokens
  rw [h.skipBom]
  dsimp only
  rw [hlength, h.scanTokens]
  rfl

end Lexes

section Sound

variable {token : Token}

theorem sound_scanTokens (rounds : ℕ) (text : Bytes) :
    ∀ token ∈ scanTokens strtod rounds text, token.Sound := by
  induction rounds generalizing text with
  | zero => exact List.forall_mem_nil _
  | succ rounds ih =>
      have hsound := (scan_spec strtod text).1
      rw [scanTokens]
      split
      · exact List.forall_mem_singleton.mpr trivial
      · exact List.forall_mem_singleton.mpr trivial
      · rename_i token rest _ _ hscan
        rw [hscan] at hsound
        exact List.forall_mem_cons.mpr ⟨hsound, ih rest⟩

theorem sound_tokens (text : Bytes) : ∀ token ∈ tokens strtod text, token.Sound := by
  unfold tokens
  split
  · exact sound_scanTokens strtod _ _
  · exact List.forall_mem_singleton.mpr trivial

-- The rounds do not run out before the text does.
theorem scanTokens_getLast (rounds : ℕ) (text : Bytes) (h : text.length < rounds) :
    ∃ token, (scanTokens strtod rounds text).getLast? = some token ∧ token.isLast = true := by
  induction rounds generalizing text with
  | zero => cases h
  | succ rounds ih =>
      have hlength := (scan_spec strtod text).2
      rw [scanTokens]
      split
      · exact ⟨_, rfl, rfl⟩
      · exact ⟨_, rfl, rfl⟩
      · rename_i token rest herror hend hscan
        have hlast : token.isLast = false := by
          cases token with
          | parse_error => exact (herror rfl).elim
          | end_of_input => exact (hend rfl).elim
          | _ => rfl
        rw [hscan] at hlength
        have hlt : rest.length < text.length := hlength hlast
        obtain ⟨token', htoken, hlast⟩ := ih rest (by omega)
        refine ⟨token', ?_, hlast⟩
        rw [List.getLast?_cons, htoken]
        rfl

end Sound

end Lexer

section Written

variable (strtod : Bytes → Option Int32)

mutual

-- The tokens of what render writes.
def writtenTokens : Json → List Token
  | .null => [.literal_null]
  | .boolean true => [.literal_true]
  | .boolean false => [.literal_false]
  | .number_integer (.ofNat n) => [.value_unsigned n]
  | .number_integer (.negSucc n) => [.value_integer (.negSucc n)]
  | .number_unsigned n => [.value_unsigned n]
  | .number_float n => [.value_float (some n)]
  | .string value => [.value_string value]
  | .array items => .begin_array :: writtenItems items ++ [.end_array]
  | .object members => .begin_object :: writtenMembers members ++ [.end_object]

def writtenItems : List Json → List Token
  | [] => []
  | [item] => item.writtenTokens
  | item :: items => item.writtenTokens ++ .value_separator :: writtenItems items

def writtenMembers : List (Bytes × Json) → List Token
  | [] => []
  | [(key, item)] => .value_string key :: .name_separator :: item.writtenTokens
  | (key, item) :: members =>
      .value_string key :: .name_separator :: item.writtenTokens ++
        .value_separator :: writtenMembers members

end

variable {strtod : Bytes → Option Int32}

open Lexer

variable {rest : Bytes}

theorem lexes_renderItems {items : List Json}
    (h : ∀ item ∈ items, ∀ {rest}, Ends rest →
      Lexes strtod (item.render ++ rest) item.writtenTokens rest) (hrest : Ends rest) :
    Lexes strtod (renderItems items ++ rest) (writtenItems items) rest := by
  induction items with
  | nil => exact .nil rest
  | cons item items ih =>
      obtain ⟨hitem, hitems⟩ := List.forall_mem_cons.mp h
      cases items with
      | nil => exact hitem hrest
      | cons next items =>
          rw [renderItems, writtenItems, List.append_assoc, List.append_assoc]
          · exact (hitem (ends_cons (.inl rfl) _)).append (.cons rfl rfl (ih hitems))
          · exact List.cons_ne_nil _ _
          · exact List.cons_ne_nil _ _

theorem lexes_member {key : Bytes} {tokens : List Token} {text : Bytes} (hkey : ValidUtf8 key)
    (h : Lexes strtod text tokens rest) :
    Lexes strtod (renderString key ++ [58] ++ text) (.value_string key :: .name_separator :: tokens)
      rest := by
  rw [List.append_assoc]
  exact .cons (scan_renderString strtod hkey _) rfl (.cons rfl rfl h)

theorem lexes_renderMembers {members : List (Bytes × Json)}
    (h : ∀ member ∈ members, ValidUtf8 member.1 ∧ ∀ {rest}, Ends rest →
      Lexes strtod (member.2.render ++ rest) member.2.writtenTokens rest) (hrest : Ends rest) :
    Lexes strtod (renderMembers members ++ rest) (writtenMembers members) rest := by
  induction members with
  | nil => exact .nil rest
  | cons member members ih =>
      obtain ⟨key, item⟩ := member
      obtain ⟨⟨hkey, hitem⟩, hmembers⟩ := List.forall_mem_cons.mp h
      cases members with
      | nil =>
          rw [renderMembers, writtenMembers, List.append_assoc]
          exact lexes_member hkey (hitem hrest)
      | cons next members =>
          have htext : renderMembers ((key, item) :: next :: members) ++ rest =
              renderString key ++ [58] ++
                (item.render ++ 44 :: (renderMembers (next :: members) ++ rest)) := by
            simp [renderMembers]
          have htokens : writtenMembers ((key, item) :: next :: members) =
              .value_string key :: .name_separator ::
                (item.writtenTokens ++ .value_separator :: writtenMembers (next :: members)) := by
            simp [writtenMembers]
          rw [htext, htokens]
          exact lexes_member hkey
            ((hitem (ends_cons (.inl rfl) _)).append (.cons rfl rfl (ih hmembers)))

-- The signs around what an array or an object holds.
theorem lexes_around {first last : UInt8} {token token' : Token} {text : Bytes}
    {tokens : List Token}
    (hfirst : ∀ rest, scan strtod (first :: rest) = (token, rest)) (hlast : token.isLast = false)
    (hsecond : ∀ rest, scan strtod (last :: rest) = (token', rest)) (hlast' : token'.isLast = false)
    (h : Lexes strtod (text ++ last :: rest) tokens (last :: rest)) :
    Lexes strtod ([first] ++ text ++ [last] ++ rest) (token :: tokens ++ [token']) rest := by
  have htext : [first] ++ text ++ [last] ++ rest = first :: (text ++ last :: rest) := by simp
  rw [htext, List.cons_append]
  exact .cons (hfirst _) hlast (h.append (.single (hsecond rest) hlast'))

theorem lexes_render (j : Json) (h : j.Readable) (hrest : Ends rest) :
    Lexes strtod (j.render ++ rest) j.writtenTokens rest := by
  induction j using induct generalizing rest with
  | null => exact .single rfl rfl
  | boolean value =>
      cases value with
      | true => exact .single rfl rfl
      | false => exact .single rfl rfl
  | number_integer value =>
      have hfits : -2 ^ 63 ≤ value ∧ value < 2 ^ 63 := of_decide_eq_true h.fits
      rw [render, ascii_toString_int]
      cases value with
      | ofNat n =>
          have hlt : (n : ℤ) < 2 ^ 63 := hfits.2
          have hn : n < 2 ^ 64 := by omega
          exact .single (scan_toDigits strtod n hn hrest) rfl
      | negSucc n => exact .single (scan_minus strtod n (by omega) hrest) rfl
  | number_unsigned value =>
      have hfits : value < 2 ^ 64 := of_decide_eq_true h.fits
      rw [render, ascii_toString_nat]
      exact .single (scan_toDigits strtod value hfits hrest) rfl
  | number_float asInt => cases h.exact
  | string value => exact .single (scan_renderString strtod (utf8_string_iff.mp h.utf8) rest) rfl
  | array items ih =>
      exact lexes_around (fun _ => rfl) rfl (fun _ => rfl) rfl <|
        lexes_renderItems (fun item hitem => ih item hitem (h.item hitem))
          (ends_cons (.inr (.inl rfl)) rest)
  | object members ih =>
      refine lexes_around (fun _ => rfl) rfl (fun _ => rfl) rfl <|
        lexes_renderMembers (fun member hmember => ?_) (ends_cons (.inr (.inr rfl)) rest)
      obtain ⟨hkey, hitem⟩ := h.member hmember
      exact ⟨hkey, ih member hmember hitem⟩

theorem tokens_render (j : Json) (h : j.Readable) :
    tokens strtod j.render = j.writtenTokens ++ [.end_of_input] := by
  have hlexes : Lexes strtod (j.render ++ []) j.writtenTokens [] := lexes_render j h ends_nil
  rw [List.append_nil] at hlexes
  exact hlexes.tokens_eq

end Written

end Json

end MyTestserver
