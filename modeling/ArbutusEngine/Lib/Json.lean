import ArbutusEngine.Lib.Numbers
import Mathlib.Algebra.Ring.Int.Defs
import Mathlib.Algebra.Ring.Nat
import Mathlib.Data.Int.Order.Basic
import Mathlib.Data.Rat.Defs

/-!
# JSON values and their accessors

JSON values as the C++ library `nlohmann::json` presents them to a program. Numbers are stored as
an integer or as a float, of a type that is a parameter and is exact when it is not given. An object
is the list of its members.

The accessors throw where the library throws, with its text: `operator[]` with a key on anything
but an object or `null` (`type_error.305`), and `get<T>` on a value of another type
(`type_error.302`). `operator[]` with a missing key, or on `null`, yields `null`. A range-based
`for` visits the elements of an array, the member values of an object, nothing for `null`, and the
value itself for a scalar. `push_back` on a default-constructed value turns `null` into an array,
so a list written element by element comes out as `null` when it is empty (`Json.pushAll`).

## Main definitions

* `Json`, `Json.field`, `Json.index`, `Json.elements`, `Json.pushAll`, `Json.insert`.
* `Json.getInt`, `Json.getUnsigned`, `Json.getFloat`, `Json.getString`.
* `Json.HoldsNumber`: the value is a number, and which one.
* `Json.without`: a value with every member of a given name left out, at any depth.
-/

/-- A JSON value. -/
inductive Json (N : Type := ℚ) where
  | null
  | bool (b : Bool)
  | int (n : ℤ)
  | float (x : N)
  | str (s : String)
  | arr (elems : List (Json N))
  | obj (members : List (String × Json N))

namespace Json

variable {N : Type}

/-- The name the library gives the type of a value in its messages. -/
def typeName : Json N → String
  | null => "null"
  | bool _ => "boolean"
  | int _ => "number"
  | float _ => "number"
  | str _ => "string"
  | arr _ => "array"
  | obj _ => "object"

def isNumber : Json N → Bool
  | int _ => true
  | float _ => true
  | _ => false

def isString : Json N → Bool
  | str _ => true
  | _ => false

def isArray : Json N → Bool
  | arr _ => true
  | _ => false

def isObject : Json N → Bool
  | obj _ => true
  | _ => false

/-- `empty()`. -/
def isEmpty : Json N → Bool
  | null => true
  | arr elems => elems.isEmpty
  | obj members => members.isEmpty
  | _ => false

/-- Whether `operator[]` with a key is allowed: on objects, and on `null`, which it turns into an
object. -/
def isIndexable : Json N → Bool
  | obj _ => true
  | null => true
  | _ => false

/-- The member of the given name, `null` when there is none. -/
def member (key : String) : List (String × Json N) → Json N
  | [] => null
  | (k, v) :: rest => if k = key then v else member key rest

/-- The member of the given name of an object, `null` for any other value. -/
def field (key : String) : Json N → Json N
  | obj members => member key members
  | _ => null

/-- The string under a key, `default` where there is none. -/
def stringOr (key default : String) (j : Json N) : String :=
  match j.field key with
  | str s => s
  | _ => default

/-- What `operator[]` with a key throws. -/
def indexError (j : Json N) : String :=
  "[json.exception.type_error.305] cannot use operator[] with a string argument with " ++ j.typeName

/-- `operator[]` with a key, on a value that is not `const`. -/
def index (key : String) (j : Json N) : Except String (Json N) :=
  if j.isIndexable then .ok (j.field key) else .error j.indexError

/-- Assignment through `operator[]`, on an object or on a default-constructed value. -/
def insert (j : Json N) (key : String) (v : Json N) : Json N :=
  match j with
  | obj members => obj (members.filter (fun m => m.1 ≠ key) ++ [(key, v)])
  | _ => obj [(key, v)]

/-- The values a range-based `for` visits. -/
def elements : Json N → List (Json N)
  | null => []
  | arr elems => elems
  | obj members => members.map Prod.snd
  | j => [j]

/-- A default-constructed value after `push_back` of every element of a list. -/
def pushAll : List (Json N) → Json N
  | [] => null
  | l => arr l

/-- What `get<T>` throws. -/
def typeError (expected : String) (j : Json N) : String :=
  "[json.exception.type_error.302] type must be " ++ expected ++ ", but is " ++ j.typeName

/-- `get<int>`. -/
def getInt [FloatNumber N] : Json N → Except String Int32
  | int n => .ok (Int32.ofInt n)
  | float x => .ok (floatToInt x)
  | bool b => .ok (if b then 1 else 0)
  | j => .error (typeError "number" j)

/-- Whether `get<T>` accepts the value for a numeric type `T`: numbers and booleans. -/
def isNumeric : Json N → Bool
  | int _ => true
  | float _ => true
  | bool _ => true
  | _ => false

/-- `get<unsigned int>`. -/
def getUnsigned [FloatNumber N] : Json N → Except String UInt32
  | int n => .ok (UInt32.ofInt n)
  | float x => .ok (floatToUnsigned x)
  | bool b => .ok (if b then 1 else 0)
  | j => .error (typeError "number" j)

/-- `get<float>`. -/
def getFloat [FloatNumber N] : Json N → Except String N
  | int n => .ok (FloatNumber.single (FloatNumber.ofRat n))
  | float x => .ok (FloatNumber.single x)
  | bool b => .ok (FloatNumber.ofRat (if b then 1 else 0))
  | j => .error (typeError "number" j)

/-- `get<string>`. -/
def getString : Json N → Except String String
  | str s => .ok s
  | j => .error (typeError "string" j)

/-! ### Reading back -/

@[simp] theorem elements_pushAll (l : List (Json N)) : (pushAll l).elements = l := by
  cases l <;> rfl

theorem pushAll_inj {l m : List (Json N)} : pushAll l = pushAll m ↔ l = m :=
  ⟨fun h => by simpa using congrArg elements h, congrArg pushAll⟩

theorem isArray_pushAll {l : List (Json N)} : (pushAll l).isArray = true ↔ l ≠ [] := by
  cases l with
  | nil => exact ⟨fun h => Bool.noConfusion h, fun h => absurd rfl h⟩
  | cons j rest => exact ⟨fun _ => List.cons_ne_nil j rest, fun _ => rfl⟩

theorem pushAll_of_ne_nil {l : List (Json N)} (hl : l ≠ []) : pushAll l = arr l := by
  cases l with
  | nil => exact absurd rfl hl
  | cons j rest => rfl

theorem field_obj (key : String) (members : List (String × Json N)) :
    (obj members).field key = member key members := rfl

theorem member_filter_append (members : List (String × Json N)) (key key' : String) (v : Json N) :
    member key' (members.filter (fun m => m.1 ≠ key) ++ [(key, v)]) =
      if key' = key then v else member key' members := by
  induction members with
  | nil => simp [member, eq_comm]
  | cons m rest ih =>
    obtain ⟨k, w⟩ := m
    by_cases hk : k = key
    · rw [List.filter_cons_of_neg (by simpa using hk), ih, member, hk]
      by_cases hk' : key' = key
      · rw [if_pos hk', if_pos hk']
      · rw [if_neg hk', if_neg hk', if_neg (Ne.symm hk')]
    · rw [List.filter_cons_of_pos (by simpa using hk), List.cons_append, member, ih, member]
      by_cases hk' : k = key'
      · rw [if_pos hk', if_pos hk', if_neg fun h => hk (hk'.trans h)]
      · rw [if_neg hk', if_neg hk']

/-- What is read after an assignment. -/
theorem field_insert (j : Json N) (key key' : String) (v : Json N) :
    (j.insert key v).field key' = if key' = key then v else j.field key' := by
  cases j with
  | obj members => exact member_filter_append members key key' v
  | _ => exact member_filter_append [] key key' v

@[simp] theorem isIndexable_insert (j : Json N) (key : String) (v : Json N) :
    (j.insert key v).isIndexable = true := by
  cases j <;> rfl

/-- An `int` that is written as a number and read back as an `unsigned int`. -/
theorem getUnsigned_int_toInt [FloatNumber N] (x : Int32) :
    (int x.toInt : Json N).getUnsigned = .ok x.toUInt32 := by
  have h : x.toBitVec.toNat = (x.toBitVec.toInt % 2 ^ 32).toNat := by
    have hx := BitVec.toNat_ofInt x.toBitVec.toInt (n := 32)
    rw [BitVec.ofInt_toInt] at hx
    exact_mod_cast hx
  have heq : UInt32.ofInt x.toInt = x.toUInt32 := by
    apply UInt32.toNat_inj.mp
    change (UInt32.ofNat (x.toBitVec.toInt % 2 ^ 32).toNat).toNat = x.toBitVec.toNat
    rw [← h, UInt32.toNat_ofNat', Nat.mod_eq_of_lt x.toBitVec.isLt]
  rw [getUnsigned, heq]

/-- A number that is not negative is read as an `unsigned int` modulo `2 ^ 32`. -/
theorem getUnsigned_int_natCast [FloatNumber N] (n : ℕ) :
    (int n : Json N).getUnsigned = .ok (UInt32.ofNat n) := by
  have hmod : ((n : ℤ) % 2 ^ 32).toNat = n % 2 ^ 32 := by omega
  rw [getUnsigned, UInt32.ofInt, hmod, UInt32.ofNat_mod_size]

/-- An `unsigned int` that is written as a number and read back. -/
theorem getUnsigned_int_toNat [FloatNumber N] (x : UInt32) :
    (int x.toNat : Json N).getUnsigned = .ok x := by
  rw [getUnsigned_int_natCast, UInt32.ofNat_toNat]

/-! ### When the accessors return -/

/-- Two accessors in sequence return when both do. -/
theorem bind_eq_ok_iff {α β : Type} {x : Except String α} {f : α → Except String β} {b : β} :
    x.bind f = .ok b ↔ ∃ a, x = .ok a ∧ f a = .ok b := by
  cases x with
  | error e => simp [Except.bind]
  | ok a => simp [Except.bind]

theorem index_of_isIndexable {j : Json N} (hj : j.isIndexable = true) (key : String) :
    j.index key = .ok (j.field key) := if_pos hj

theorem index_of_not_isIndexable {j : Json N} (hj : j.isIndexable = false) (key : String) :
    j.index key = .error j.indexError := if_neg (by simp [hj])

/-- A value that has a member can be indexed. -/
theorem index_of_field_ne_null {j : Json N} {key : String} (hj : j.field key ≠ null)
    (key' : String) : j.index key' = .ok (j.field key') := by
  cases j with
  | obj members => rfl
  | _ => exact absurd rfl hj

theorem isIndexable_of_isObject {j : Json N} (hj : j.isObject = true) : j.isIndexable = true := by
  cases j <;> first | rfl | exact Bool.noConfusion hj

theorem exists_getInt [FloatNumber N] {j : Json N} (hj : j.isNumeric = true) :
    ∃ n, j.getInt = .ok n := by
  cases j <;> first | exact ⟨_, rfl⟩ | exact Bool.noConfusion hj

theorem exists_getFloat [FloatNumber N] {j : Json N} (hj : j.isNumeric = true) :
    ∃ x, j.getFloat = .ok x := by
  cases j <;> first | exact ⟨_, rfl⟩ | exact Bool.noConfusion hj

theorem exists_getString {j : Json N} (hj : j.isString = true) : ∃ s, j = str s := by
  cases j <;> first | exact ⟨_, rfl⟩ | exact Bool.noConfusion hj

theorem getString_of_not_isString {j : Json N} (hj : j.isString = false) :
    j.getString = .error (j.typeError "string") := by
  cases j <;> first | rfl | exact Bool.noConfusion hj

theorem isNumeric_of_isNumber {j : Json N} (hj : j.isNumber = true) : j.isNumeric = true := by
  cases j <;> first | rfl | exact Bool.noConfusion hj

/-- The number that a value is, before any conversion. -/
def number? [FloatNumber N] : Json N → Option N
  | int n => some (FloatNumber.ofRat n)
  | float x => some x
  | _ => none

theorem isNumber_iff_number? [FloatNumber N] {v : Json N} :
    v.isNumber = true ↔ ∃ x, v.number? = some x := by
  cases v <;> simp [isNumber, number?]

theorem getFloat_of_number? [FloatNumber N] {v : Json N} {x : N} (hx : v.number? = some x) :
    v.getFloat = .ok (FloatNumber.single x) := by
  cases v <;> simp_all [number?, getFloat]

/-- The value is a number, equal to the given one. -/
def HoldsNumber [FloatNumber N] (v : Json N) (x : N) : Prop := ∃ y ∈ v.number?, y ≤ x ∧ x ≤ y

theorem holdsNumber_float [FloatNumber N] {x y : N} :
    (float y).HoldsNumber x ↔ y ≤ x ∧ x ≤ y := by
  simp [HoldsNumber, number?]

theorem not_holdsNumber [FloatNumber N] {v : Json N} (hv : v.isNumber = false) (x : N) :
    ¬v.HoldsNumber x := by
  rintro ⟨y, hy, -⟩
  cases v <;> first | exact Bool.noConfusion hv | exact Option.noConfusion rfl (heq_of_eq hy)

mutual

/-- The value with every member named `key` left out, at any depth. -/
def without (key : String) : Json N → Json N
  | arr elems => arr (withoutElems key elems)
  | obj members => obj (withoutMembers key members)
  | null => null
  | bool b => bool b
  | int n => int n
  | float q => float q
  | str s => str s

def withoutElems (key : String) : List (Json N) → List (Json N)
  | [] => []
  | j :: rest => without key j :: withoutElems key rest

def withoutMembers (key : String) : List (String × Json N) → List (String × Json N)
  | [] => []
  | (k, v) :: rest =>
    if k = key then withoutMembers key rest else (k, without key v) :: withoutMembers key rest

end

theorem withoutElems_eq_map (key : String) (l : List (Json N)) :
    withoutElems key l = l.map (without key) := by
  induction l with
  | nil => rfl
  | cons j rest ih => rw [withoutElems, ih, List.map_cons]

theorem without_pushAll (key : String) (l : List (Json N)) :
    (pushAll l).without key = pushAll (l.map (without key)) := by
  cases l with
  | nil => rfl
  | cons j rest => exact congrArg arr (withoutElems_eq_map key (j :: rest))

theorem member_withoutMembers {key k : String} (hk : k ≠ key) (members : List (String × Json N)) :
    member k (withoutMembers key members) = (member k members).without key := by
  induction members with
  | nil => rfl
  | cons m rest ih =>
    rw [withoutMembers]
    by_cases hkey : m.1 = key
    · rw [if_pos hkey, ih, member, if_neg fun hm => hk (hm.symm.trans hkey)]
    · rw [if_neg hkey, member, member, ih]
      split_ifs <;> rfl

/-- A member with another name is still there. -/
theorem field_without {key k : String} (hk : k ≠ key) (j : Json N) :
    (j.without key).field k = (j.field k).without key := by
  cases j with
  | obj members => exact member_withoutMembers hk members
  | _ => rfl

end Json
