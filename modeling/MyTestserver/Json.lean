import Mathlib.Algebra.Group.Nat.Defs
import MyTestserver.Basic

namespace MyTestserver

-- The well-formed UTF-8 byte strings, which are what the vendored JSON library reads
-- into its strings and agrees to write.
def ValidUtf8 (bytes : Bytes) : Prop := (ByteArray.mk bytes.toArray).IsValidUTF8

instance (bytes : Bytes) : Decidable (ValidUtf8 bytes) := by
  unfold ValidUtf8
  infer_instance

theorem validUtf8_ascii (text : String) : ValidUtf8 (ascii text) := text.isValidUTF8

-- nlohmann::basic_json. Of a float only what static_cast<int> makes of it is kept, for the
-- program looks at one in no other way: the value truncated toward zero where an int can
-- hold that, and what the platform gives elsewhere.
inductive Json
  | null
  | boolean (value : Bool)
  | number_integer (value : ℤ)
  | number_unsigned (value : ℕ)
  | number_float (asInt : Int32)
  | string (value : Bytes)
  | array (items : List Json)
  | object (members : List (Bytes × Json))

namespace Json

section Access

-- from_json for std::string
def getString : Json → Except Exception Bytes
  | .string value => .ok value
  | _ => .error .type_error

-- static_cast<int> of an integer: the residue modulo 2 ^ 32 that an int can hold.
def toInt32 (n : ℤ) : ℤ := n.bmod (2 ^ 32)

-- from_json for int, which also takes a boolean
def getInt : Json → Except Exception ℤ
  | .number_unsigned n => .ok (toInt32 n)
  | .number_integer n => .ok (toInt32 n)
  | .number_float n => .ok n.toInt
  | .boolean b => .ok b.toNat
  | _ => .error .type_error

-- operator[] with a string key on a value that is not const: null becomes an object, and
-- a missing member is created as null.
def index (j : Json) (key : Bytes) : Except Exception Json :=
  match j with
  | .null => .ok .null
  | .object members => .ok ((members.lookup key).getD .null)
  | _ => .error .type_error

-- value(key, default)
def valueString (j : Json) (key default : Bytes) : Except Exception Bytes :=
  match j with
  | .object members =>
      match members.lookup key with
      | some v => v.getString
      | none => .ok default
  | _ => .error .type_error

def valueInt (j : Json) (key : Bytes) (default : ℤ) : Except Exception ℤ :=
  match j with
  | .object members =>
      match members.lookup key with
      | some v => v.getInt
      | none => .ok default
  | _ => .error .type_error

-- Assignment through operator[]: a std::map, so the members stay in the order of the keys.
def insertMember (key : Bytes) (v : Json) : List (Bytes × Json) → List (Bytes × Json)
  | [] => [(key, v)]
  | (k, w) :: members =>
      if key = k then (key, v) :: members
      else if key < k then (key, v) :: (k, w) :: members
      else (k, w) :: insertMember key v members

def assign (j : Json) (key : Bytes) (v : Json) : Json :=
  match j with
  | .object members => .object (insertMember key v members)
  | _ => .object [(key, v)]

end Access

section Errors

-- Whatever is done to a value of the wrong type, the exception is the same.
variable {j : Json} {key : Bytes} {e : Exception}

theorem getString_eq_ok_iff {text : Bytes} : j.getString = .ok text ↔ j = .string text := by
  cases j <;> simp [getString]

theorem getString_error (h : j.getString = .error e) : e = .type_error := by
  cases j <;> cases h <;> rfl

theorem getInt_error (h : j.getInt = .error e) : e = .type_error := by
  cases j <;> cases h <;> rfl

theorem index_error (h : j.index key = .error e) : e = .type_error := by
  cases j <;> cases h <;> rfl

theorem valueString_error {default : Bytes} (h : j.valueString key default = .error e) :
    e = .type_error := by
  cases j with
  | object members =>
      simp only [valueString] at h
      split at h
      · exact getString_error h
      · cases h
  | _ => cases h; rfl

theorem valueInt_error {default : ℤ} (h : j.valueInt key default = .error e) :
    e = .type_error := by
  cases j with
  | object members =>
      simp only [valueInt] at h
      split at h
      · exact getInt_error h
      · cases h
  | _ => cases h; rfl

end Errors

section Utf8

mutual

-- Every string in the value is well-formed UTF-8, object keys included.
def utf8 : Json → Bool
  | .string value => ValidUtf8 value
  | .array items => utf8Items items
  | .object members => utf8Members members
  | .null | .boolean _ | .number_integer _ | .number_unsigned _ | .number_float _ => true

def utf8Items : List Json → Bool
  | [] => true
  | item :: items => item.utf8 && utf8Items items

def utf8Members : List (Bytes × Json) → Bool
  | [] => true
  | (key, item) :: members => ValidUtf8 key && item.utf8 && utf8Members members

end

def Utf8 (j : Json) : Prop := j.utf8 = true

instance (j : Json) : Decidable j.Utf8 := by
  unfold Utf8
  infer_instance

theorem utf8Items_iff (items : List Json) : utf8Items items ↔ ∀ item ∈ items, item.Utf8 := by
  induction items with
  | nil => simp [utf8Items]
  | cons item items ih => simp [utf8Items, ih, Utf8]

theorem utf8Members_cons (key : Bytes) (item : Json) (members : List (Bytes × Json)) :
    utf8Members ((key, item) :: members) ↔
      ValidUtf8 key ∧ item.Utf8 ∧ utf8Members members := by
  simp [utf8Members, Utf8, and_assoc]

theorem utf8_lookup {members : List (Bytes × Json)} {key : Bytes} {v : Json}
    (h : utf8Members members) (hv : members.lookup key = some v) : v.Utf8 := by
  induction members with
  | nil => cases hv
  | cons member members ih =>
      obtain ⟨k, item⟩ := member
      obtain ⟨_, hitem, hmembers⟩ := (utf8Members_cons _ _ _).mp h
      simp only [List.lookup_cons] at hv
      split at hv
      · exact Option.some.inj hv ▸ hitem
      · exact ih hmembers hv

theorem utf8_null : null.Utf8 := rfl

theorem utf8_boolean (value : Bool) : (boolean value).Utf8 := rfl

theorem utf8_number (value : ℤ) : (number_integer value).Utf8 := rfl

theorem utf8_string_iff {value : Bytes} : (string value).Utf8 ↔ ValidUtf8 value := by
  simp [Utf8, utf8]

theorem utf8_array_iff {items : List Json} : (array items).Utf8 ↔ ∀ item ∈ items, item.Utf8 :=
  utf8Items_iff items

theorem utf8_ascii (text : String) : (string (ascii text)).Utf8 :=
  utf8_string_iff.mpr (validUtf8_ascii text)

theorem lookup_insertMember (key other : Bytes) (v : Json) (members : List (Bytes × Json)) :
    (insertMember key v members).lookup other =
      if other = key then some v else members.lookup other := by
  induction members with
  | nil => simp only [insertMember, List.lookup_cons, List.lookup_nil]; grind
  | cons member members ih =>
      obtain ⟨k, w⟩ := member
      simp only [insertMember]
      split
      · simp only [List.lookup_cons]; grind
      split
      · simp only [List.lookup_cons]; grind
      · simp only [List.lookup_cons, ih]; grind

theorem lookup_single_ne {key other : Bytes} (v : Json) (h : other ≠ key) :
    List.lookup other [(key, v)] = none := by
  simp [List.lookup_cons, beq_false_of_ne h]

-- A new member makes a value UTF-8 or not by itself.
theorem utf8_insertMember_iff {members : List (Bytes × Json)} {key : Bytes} {v : Json}
    (hnew : members.lookup key = none) :
    utf8Members (insertMember key v members) ↔
      ValidUtf8 key ∧ v.Utf8 ∧ utf8Members members := by
  induction members with
  | nil => exact utf8Members_cons _ _ _
  | cons member members ih =>
      obtain ⟨k, w⟩ := member
      have hk : key ≠ k := by
        rintro rfl
        simp at hnew
      have hnew : members.lookup key = none := by
        rw [List.lookup_cons, beq_false_of_ne hk] at hnew
        exact hnew
      simp only [insertMember, if_neg hk]
      split
      · exact utf8Members_cons _ _ _
      · rw [utf8Members_cons, utf8Members_cons, ih hnew]
        grind

theorem utf8_insertMember {members : List (Bytes × Json)} {key : Bytes} {v : Json}
    (h : utf8Members members) (hkey : ValidUtf8 key) (hv : v.Utf8) :
    utf8Members (insertMember key v members) := by
  induction members with
  | nil => exact (utf8Members_cons _ _ _).mpr ⟨hkey, hv, rfl⟩
  | cons member members ih =>
      obtain ⟨k, w⟩ := member
      obtain ⟨hk, hw, hmembers⟩ := (utf8Members_cons _ _ _).mp h
      simp only [insertMember]
      split
      · exact (utf8Members_cons _ _ _).mpr ⟨hkey, hv, hmembers⟩
      split
      · exact (utf8Members_cons _ _ _).mpr ⟨hkey, hv, h⟩
      · exact (utf8Members_cons _ _ _).mpr ⟨hk, hw, ih hmembers⟩

theorem utf8_assign {j v : Json} {key : Bytes} (h : j.Utf8) (hkey : ValidUtf8 key) (hv : v.Utf8) :
    (j.assign key v).Utf8 := by
  cases j with
  | object members => exact utf8_insertMember h hkey hv
  | _ => exact (utf8Members_cons _ _ _).mpr ⟨hkey, hv, rfl⟩

theorem utf8_assign_ascii {j v : Json} (key : String) (h : j.Utf8) (hv : v.Utf8) :
    (j.assign (ascii key) v).Utf8 :=
  utf8_assign h (validUtf8_ascii key) hv

theorem getString_utf8 {j : Json} {value : Bytes} (h : j.Utf8) (hv : j.getString = .ok value) :
    ValidUtf8 value := by
  cases j with
  | string s =>
      have hs : s = value := Except.ok.inj hv
      exact hs ▸ utf8_string_iff.mp h
  | _ => cases hv

theorem valueString_utf8 {j : Json} {key default value : Bytes} (h : j.Utf8)
    (hd : ValidUtf8 default) (hv : j.valueString key default = .ok value) : ValidUtf8 value := by
  cases j with
  | object members =>
      simp only [valueString] at hv
      split at hv
      · exact getString_utf8 (utf8_lookup h ‹_›) hv
      · exact Except.ok.inj hv ▸ hd
  | _ => cases hv

end Utf8

section Dump

def hexDigit (n : ℕ) : UInt8 := if n < 10 then UInt8.ofNat (48 + n) else UInt8.ofNat (87 + n)

-- dump_escaped, one byte at a time; bytes of longer code points are copied.
def escapeByte (byte : UInt8) : Bytes :=
  if byte = 8 then ascii "\\b"
  else if byte = 9 then ascii "\\t"
  else if byte = 10 then ascii "\\n"
  else if byte = 12 then ascii "\\f"
  else if byte = 13 then ascii "\\r"
  else if byte = 34 then ascii "\\\""
  else if byte = 92 then ascii "\\\\"
  else if byte < 32 then ascii "\\u00" ++ [hexDigit (byte.toNat / 16), hexDigit (byte.toNat % 16)]
  else [byte]

def renderString (value : Bytes) : Bytes := [34] ++ value.flatMap escapeByte ++ [34]

mutual

-- The compact form of serializer::dump. Nothing the program dumps has a float in it.
def render : Json → Bytes
  | .null => ascii "null"
  | .boolean true => ascii "true"
  | .boolean false => ascii "false"
  | .number_integer n => ascii (toString n)
  | .number_unsigned n => ascii (toString n)
  | .number_float n => ascii (toString n.toInt)
  | .string value => renderString value
  | .array items => [91] ++ renderItems items ++ [93]
  | .object members => [123] ++ renderMembers members ++ [125]

def renderItems : List Json → Bytes
  | [] => []
  | [item] => item.render
  | item :: items => item.render ++ [44] ++ renderItems items

def renderMembers : List (Bytes × Json) → Bytes
  | [] => []
  | [(key, item)] => renderString key ++ [58] ++ item.render
  | (key, item) :: members =>
      renderString key ++ [58] ++ item.render ++ [44] ++ renderMembers members

end

-- type_error 316: a string that is not UTF-8.
def dump (j : Json) : Except Exception Bytes :=
  if j.Utf8 then .ok j.render else .error .type_error

theorem dump_ok {j : Json} (h : j.Utf8) : j.dump = .ok j.render := if_pos h

theorem dump_error {j : Json} {e : Exception} (h : j.dump = .error e) :
    e = .type_error ∧ ¬j.Utf8 := by
  unfold dump at h
  split at h
  · cases h
  · rename_i hj
    cases h
    exact ⟨rfl, hj⟩

end Dump

end Json

-- The parser of the vendored library is a parameter of the model; this is what the library
-- documents about it. A number too large for a double is the one JSON text it refuses, and
-- with another exception than ill-formed text.
structure ParseDocumented (parse : Bytes → Except Exception Json) : Prop where
  throws : ∀ {text e}, parse text = .error e → e = .parse_error ∨ e = .out_of_range
  utf8 : ∀ {text j}, parse text = .ok j → j.Utf8

end MyTestserver
