/-
The cJSON tree and the operations the servers use on it.

An object is the list of its children, in order; names may repeat. What a
lookup, an edit and a type test do is read off `cJSON.c`: a lookup takes the
first match, `cJSON_GetObjectItem` and every edit compare names up to case,
and only `cJSON_GetObjectItemCaseSensitive` compares them exactly.

Two simplifications, both harmless to what is proved here. Allocation
succeeds, so `cJSON_Duplicate(json, 1)` is the tree itself. And a number is
a rational: every finite double is one, and the only readings the servers
take of it are `valueint` and its printed form.
-/
import FinalServer.CString
import FinalServer.FieldList
import Mathlib.Data.Rat.Defs
import Mathlib.Data.Rat.Cast.Order

namespace FinalServer

/-- A parsed JSON value (`cJSON`). -/
inductive Json
  | null
  | bool (b : Bool)
  | number (valuedouble : ℚ)
  | string (valuestring : CString)
  | array (items : List Json)
  | object (fields : List (CString × Json))

namespace Json

instance : Inhabited Json := ⟨.null⟩

mutual

def decEq : (a b : Json) → Decidable (a = b)
  | .null, .null => isTrue rfl
  | .bool a, .bool b => decidable_of_iff (a = b) (by simp)
  | .number a, .number b => decidable_of_iff (a = b) (by simp)
  | .string a, .string b => decidable_of_iff (a = b) (by simp)
  | .array a, .array b => @decidable_of_iff _ (a = b) (by simp) (decEqItems a b)
  | .object a, .object b => @decidable_of_iff _ (a = b) (by simp) (decEqFields a b)
  | .null, .bool _ | .null, .number _ | .null, .string _ | .null, .array _ | .null, .object _
  | .bool _, .null | .bool _, .number _ | .bool _, .string _ | .bool _, .array _ | .bool _, .object _
  | .number _, .null | .number _, .bool _ | .number _, .string _ | .number _, .array _
  | .number _, .object _ | .string _, .null | .string _, .bool _ | .string _, .number _
  | .string _, .array _ | .string _, .object _ | .array _, .null | .array _, .bool _
  | .array _, .number _ | .array _, .string _ | .array _, .object _ | .object _, .null
  | .object _, .bool _ | .object _, .number _ | .object _, .string _ | .object _, .array _ =>
    isFalse (by simp)

def decEqItems : (a b : List Json) → Decidable (a = b)
  | [], [] => isTrue rfl
  | [], _ :: _ | _ :: _, [] => isFalse (by simp)
  | a :: as, b :: bs =>
    @decidable_of_iff _ (a = b ∧ as = bs) (by simp)
      (@instDecidableAnd _ _ (decEq a b) (decEqItems as bs))

def decEqFields : (a b : List (CString × Json)) → Decidable (a = b)
  | [], [] => isTrue rfl
  | [], _ :: _ | _ :: _, [] => isFalse (by simp)
  | (k, a) :: as, (l, b) :: bs =>
    @decidable_of_iff _ (k = l ∧ a = b ∧ as = bs) (by simp [and_assoc])
      (@instDecidableAnd _ _ inferInstance
        (@instDecidableAnd _ _ (decEq a b) (decEqFields as bs)))

end

instance : DecidableEq Json := decEq

/-! ## Reading a value -/

/-- `cJSON_IsNumber`. -/
def isNumber : Json → Bool
  | .number _ => true
  | _ => false

/-- `cJSON_IsString`. -/
def isString : Json → Bool
  | .string _ => true
  | _ => false

/-- `cJSON_IsBool`. -/
def isBool : Json → Bool
  | .bool _ => true
  | _ => false

/-- `cJSON_IsNull`. -/
def isNull : Json → Bool
  | .null => true
  | _ => false

/-- `cJSON_IsArray`. -/
def isArray : Json → Bool
  | .array _ => true
  | _ => false

def INT_MAX : Int := 2147483647

def INT_MIN : Int := -2147483648

/-- The saturating conversion of `parse_number` and `cJSON_CreateNumber`. -/
def toInt (d : ℚ) : Int :=
  if INT_MAX * d.den ≤ d.num then INT_MAX
  else if d.num ≤ INT_MIN * d.den then INT_MIN
  else d.num.tdiv d.den

/-- `item->valueint`: set for numbers, and to 1 by the parser for `true`. -/
def valueint : Json → Int
  | .number d => toInt d
  | .bool true => 1
  | _ => 0

/-- `item->valuestring`, `NULL` unless the value is a string. -/
def valuestring : Json → Option CString
  | .string s => some s
  | _ => none

/-- The named children of a value. An array's elements have no name, which is
where a lookup in an array stops. -/
def fields : Json → List (CString × Json)
  | .object fs => fs
  | _ => []

/-- The elements of an array. -/
def items : Json → List Json
  | .array js => js
  | _ => []

/-- `cJSON_GetObjectItem`: the first field of that name, up to case. -/
def getObjectItem (object : Json) (string : CString) : Option Json :=
  FieldList.get string.eqNoCase object.fields

/-- `cJSON_GetObjectItemCaseSensitive`: the first field of exactly that name. -/
def getObjectItemCaseSensitive (object : Json) (string : CString) : Option Json :=
  FieldList.get (string == ·) object.fields

/-- `cJSON_HasObjectItem`. -/
def hasObjectItem (object : Json) (string : CString) : Bool := (object.getObjectItem string).isSome

/-! ## Building and editing -/

/-- `cJSON_CreateNumber` of an `int`. -/
def createNumber (n : Int) : Json := .number n

/-- `cJSON_AddItemToObject`: the item goes last. -/
def addItemToObject (object : Json) (name : CString) (item : Json) : Json :=
  match object with
  | .object fs => .object (fs ++ [(name, item)])
  | j => j

/-- `cJSON_AddNumberToObject`. -/
def addNumberToObject (object : Json) (name : CString) (n : Int) : Json :=
  object.addItemToObject name (createNumber n)

/-- `cJSON_AddStringToObject`: a `NULL` string creates no item, and nothing is added. -/
def addStringToObject (object : Json) (name : CString) (s : Option CString) : Json :=
  match s with
  | some s => object.addItemToObject name (.string s)
  | none => object

/-- `cJSON_DeleteItemFromObject`: the first field of that name, up to case, goes. -/
def deleteItemFromObject (object : Json) (name : CString) : Json :=
  match object with
  | .object fs => .object (FieldList.erase name.eqNoCase fs)
  | j => j

/-- `cJSON_ReplaceItemInObject`: the first field of that name, up to case, is
replaced and takes the given spelling; without one nothing happens. -/
def replaceItemInObject (object : Json) (name : CString) (item : Json) : Json :=
  match object with
  | .object fs => .object (FieldList.replace name.eqNoCase name item fs)
  | j => j

/-! ## Numbers -/

/-- An `int` survives `cJSON_CreateNumber` and `valueint`. -/
theorem valueint_createNumber {n : Int} (hlo : INT_MIN ≤ n) (hhi : n ≤ INT_MAX) :
    (createNumber n).valueint = n := by
  simp only [createNumber, valueint, toInt, Rat.den_intCast, Rat.num_intCast]
  simp only [INT_MIN, INT_MAX] at *
  split_ifs <;> simp <;> omega

/-- Whatever the number, `valueint` is an `int`. -/
theorem valueint_range (j : Json) : INT_MIN ≤ j.valueint ∧ j.valueint ≤ INT_MAX := by
  cases j with
  | number d =>
    simp only [valueint, toInt]
    have hd : (0 : Int) < d.den := by exact_mod_cast d.den_pos
    split_ifs with h₁ h₂
    · simp [INT_MIN, INT_MAX]
    · simp [INT_MIN, INT_MAX]
    · simp only [not_le] at h₁ h₂
      have hle := Int.tdiv_le_tdiv hd h₁.le
      have hge := Int.tdiv_le_tdiv hd h₂.le
      rw [Int.mul_tdiv_cancel _ hd.ne'] at hle hge
      exact ⟨hge, hle⟩
  | bool b => cases b <;> simp [valueint, INT_MIN, INT_MAX]
  | _ => simp [valueint, INT_MIN, INT_MAX]

theorem isNumber_createNumber (n : Int) : (createNumber n).isNumber = true := rfl

/-! ## Lookups after edits -/

section Lookups

variable {j v : Json} {m n : CString}

theorem noCase_disjoint (h : n.eqNoCase m = false) (k : CString) (hk : n.eqNoCase k = true) :
    m.eqNoCase k = false := by
  rw [CString.eqNoCase_congr hk] at h
  rw [CString.eqNoCase_symm, h]

theorem exact_disjoint (h : n.eqNoCase m = false) (k : CString) (hk : n.eqNoCase k = true) :
    (m == k) = false := by
  have hne := CString.ne_of_eqNoCase (noCase_disjoint h k hk)
  simpa using hne

theorem noCase_of_exact (k : CString) (hk : (m == k) = true) : m.eqNoCase k = true := by
  rw [beq_iff_eq] at hk
  rw [hk, CString.eqNoCase_refl]

theorem getObjectItem_delete_other (h : n.eqNoCase m = false) :
    (j.deleteItemFromObject n).getObjectItem m = j.getObjectItem m := by
  cases j <;> first | rfl | exact FieldList.get_erase_other (noCase_disjoint h)

theorem getCaseSensitive_delete_other (h : n.eqNoCase m = false) :
    (j.deleteItemFromObject n).getObjectItemCaseSensitive m = j.getObjectItemCaseSensitive m := by
  cases j <;> first | rfl | exact FieldList.get_erase_other (exact_disjoint h)

theorem getObjectItem_replace_other (h : n.eqNoCase m = false) :
    (j.replaceItemInObject n v).getObjectItem m = j.getObjectItem m := by
  cases j <;> first
    | rfl
    | exact FieldList.get_replace_other (noCase_disjoint h) (noCase_disjoint h n (by simp))

theorem getCaseSensitive_replace_other (h : n.eqNoCase m = false) :
    (j.replaceItemInObject n v).getObjectItemCaseSensitive m = j.getObjectItemCaseSensitive m := by
  cases j <;> first
    | rfl
    | exact FieldList.get_replace_other (exact_disjoint h) (exact_disjoint h n (by simp))

/-- After a replacement the name reads as the new item, if it read as anything. -/
theorem getObjectItem_replace_self :
    (j.replaceItemInObject n v).getObjectItem n = (j.getObjectItem n).map fun _ => v := by
  cases j <;> first | rfl | exact FieldList.get_replace_self (fun _ h => h) (by simp)

/-- An exact lookup too: the replaced field takes the exact spelling, and no
exact match stood before it. -/
theorem getCaseSensitive_replace_self :
    (j.replaceItemInObject n v).getObjectItemCaseSensitive n = (j.getObjectItem n).map fun _ => v := by
  cases j <;> first | rfl | exact FieldList.get_replace_self noCase_of_exact (by simp)

theorem getObjectItem_add_other (h : n.eqNoCase m = false) :
    (j.addItemToObject n v).getObjectItem m = j.getObjectItem m := by
  cases j <;> first | rfl | exact FieldList.get_add_other (noCase_disjoint h n (by simp))

theorem getCaseSensitive_add_other (h : n.eqNoCase m = false) :
    (j.addItemToObject n v).getObjectItemCaseSensitive m = j.getObjectItemCaseSensitive m := by
  cases j <;> first | rfl | exact FieldList.get_add_other (exact_disjoint h n (by simp))

/-- A field added last is shadowed by an earlier one of its name. -/
theorem getCaseSensitive_add_self {fs : List (CString × Json)} :
    ((object fs).addItemToObject n v).getObjectItemCaseSensitive n =
      ((object fs).getObjectItemCaseSensitive n).or (some v) :=
  FieldList.get_add_self (by simp)

theorem getObjectItem_add_self {fs : List (CString × Json)} :
    ((object fs).addItemToObject n v).getObjectItem n = ((object fs).getObjectItem n).or (some v) :=
  FieldList.get_add_self (by simp)

/-- Only objects have fields to find. -/
theorem exists_object_of_get {i : Json} (h : j.getObjectItemCaseSensitive n = some i) :
    ∃ fs, j = object fs := by
  cases j with
  | object fs => exact ⟨fs, rfl⟩
  | _ => simp [getObjectItemCaseSensitive, fields] at h

/-- What an exact lookup finds, a lookup up to case finds something for. -/
theorem getObjectItem_isSome {i : Json} (h : j.getObjectItemCaseSensitive n = some i) :
    (j.getObjectItem n).isSome :=
  FieldList.get_isSome_of_imp noCase_of_exact (by
    rw [getObjectItemCaseSensitive] at h
    rw [h]
    rfl)

end Lookups

end Json

/-- An `int` prints in eleven bytes. -/
theorem length_ofInt_le {n : Int} (hlo : Json.INT_MIN ≤ n) (hhi : n ≤ Json.INT_MAX) :
    (CString.ofInt n).length ≤ 11 := by
  have hdigits : ∀ k : Nat, k ≤ 2147483648 → k.repr.length ≤ 10 := fun k hk => by
    rw [Nat.length_repr_le_iff (by omega)]
    omega
  simp only [Json.INT_MIN, Json.INT_MAX] at hlo hhi
  refine (length_ofString_le _).trans ?_
  rw [Int.toString_eq_repr, Int.repr_eq_if]
  split
  · exact (hdigits _ (by omega)).trans (by omega)
  · have hminus : "-".length = 1 := rfl
    have habs := hdigits (-n).toNat (by omega)
    rw [String.length_append, hminus]
    omega

end FinalServer
