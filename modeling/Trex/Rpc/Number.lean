/-
# The integers in a request

The parsing functions of `TrexRpcCommand` (trex_rpc_cmd.cpp) for the integer types of the C code, of
a member of an object and of an element of an array.  Each of them checks the type of the field with
one accessor of the JSON library and reads it with another.

A number is accepted when it is an integer of the C type, and then it is what is returned
(`exact_iff`); but `parse_uint64` checks with `isInt64`, so the upper half of the range of a
`uint64_t` is refused.
-/
import Trex.Rpc.AddStream
import Mathlib.Data.UInt
import Mathlib.Tactic.Linarith

namespace Trex.Rpc

/-! ## 1. The functions -/

/-- `parse_uint16` of an element. -/
def parseUInt16At (parent : Json) (index : Nat) : Except RpcErr UInt16 := do
  let v ← checkElement parent index
  uint16Of v (elementName index)

/-- `parse_uint32` of an element. -/
def parseUInt32At (parent : Json) (index : Nat) : Except RpcErr UInt32 := do
  let v ← checkElement parent index
  uint32Of v (elementName index)

/-- `parse_uint64` of an element. -/
def parseUInt64At (parent : Json) (index : Nat) : Except RpcErr UInt64 := do
  let v ← checkElement parent index
  uint64Of v (elementName index)

/-- A call of one of the functions. -/
inductive IntCall
  | byte (name : String)
  | byteAt (index : Nat)
  | uint16 (name : String)
  | uint16At (index : Nat)
  | uint32 (name : String)
  | uint32At (index : Nat)
  | uint64 (name : String)
  | uint64At (index : Nat)
  | int (name : String)

namespace IntCall

/-- The number that is returned. -/
def run (parent : Json) : IntCall → Except RpcErr Int
  | byte name => (parseByte parent name).map fun n => n.toNat
  | byteAt index => (parseByteAt parent index).map fun n => n.toNat
  | uint16 name => (parseUInt16 parent name).map fun n => n.toNat
  | uint16At index => (parseUInt16At parent index).map fun n => n.toNat
  | uint32 name => (parseUInt32 parent name).map fun n => n.toNat
  | uint32At index => (parseUInt32At parent index).map fun n => n.toNat
  | uint64 name => (parseUInt64 parent name).map fun n => n.toNat
  | uint64At index => (parseUInt64At parent index).map fun n => n.toNat
  | int name => (parseInt parent name).map Int32.toInt

/-- The field that is read. -/
def field (parent : Json) : IntCall → Json
  | byte name | uint16 name | uint32 name | uint64 name | int name => parent.field name
  | byteAt index | uint16At index | uint32At index | uint64At index => parent.at index

/-- The least value of the C type. -/
def least : IntCall → Int
  | int _ => -2 ^ 31
  | _ => 0

/-- The greatest value of the C type. -/
def greatest : IntCall → Int
  | byte _ | byteAt _ => 2 ^ 8 - 1
  | uint16 _ | uint16At _ => 2 ^ 16 - 1
  | uint32 _ | uint32At _ => 2 ^ 32 - 1
  | uint64 _ | uint64At _ => 2 ^ 64 - 1
  | int _ => 2 ^ 31 - 1

/-- The call is one of `parse_uint64`. -/
def IsUInt64 : IntCall → Prop
  | uint64 _ | uint64At _ => True
  | _ => False

/-- A call that reads the number `q` returns exactly the integers of the C type. -/
def Exact (c : IntCall) (parent : Json) (q : Rat) : Prop :=
  ∀ z : Int, c.run parent = .ok z ↔ q = z ∧ c.least ≤ z ∧ z ≤ c.greatest

end IntCall

/-! ## 2. Numbers -/

section Numbers

variable {v : Json} {q : Rat} {lo hi z : Int} {name : String}

theorem isIntegral_iff (hnum : v.num? = some q) :
    v.isIntegral lo hi = true ↔ ∃ z : Int, q = z ∧ lo ≤ z ∧ z ≤ hi := by
  rw [Json.isIntegral, hnum]
  simp only [Bool.and_eq_true, decide_eq_true_eq, beq_iff_eq]
  refine ⟨?_, ?_⟩
  · rintro ⟨⟨hden, hlo⟩, hhi⟩
    exact ⟨q.num, (Rat.den_eq_one_iff q).mp hden |>.symm, hlo, hhi⟩
  · rintro ⟨z, rfl, hlo, hhi⟩
    exact ⟨⟨Rat.den_intCast z, hlo⟩, hhi⟩

theorem asInt_eq (hnum : v.num? = some (z : Rat)) : v.asInt = z := by
  rw [Json.asInt, hnum]
  exact Rat.num_intCast z

variable {β : Type} {toInt : β → Int}

/-- A function that returns the integers from `lo` to `hi` and refuses everything else. -/
theorem accepts_iff {r : Except RpcErr β}
    (hin : ∀ w : Int, q = w → lo ≤ w → w ≤ hi → ∃ b, r = .ok b ∧ toInt b = w)
    (hout : (¬ ∃ w : Int, q = w ∧ lo ≤ w ∧ w ≤ hi) → ∃ e, r = .error e) (z : Int) :
    r.map toInt = .ok z ↔ q = z ∧ lo ≤ z ∧ z ≤ hi := by
  refine ⟨fun hok => ?_, ?_⟩
  · by_cases hw : ∃ w : Int, q = w ∧ lo ≤ w ∧ w ≤ hi
    · obtain ⟨w, hq, hlo, hhi⟩ := hw
      obtain ⟨b, rfl, hb⟩ := hin w hq hlo hhi
      cases hok
      rw [hb]
      exact ⟨hq, hlo, hhi⟩
    · obtain ⟨e, rfl⟩ := hout hw
      cases hok
  · rintro ⟨hq, hlo, hhi⟩
    obtain ⟨b, rfl, hb⟩ := hin z hq hlo hhi
    rw [← hb]
    rfl

/-- The checks of the types that are narrower than an `int`. -/
theorem narrowOf_iff {e e' e'' : RpcErr} {ofNat : Nat → β} (hnum : v.num? = some q)
    (hint : hi < 2 ^ 31) (hof : ∀ n : Nat, (n : Int) ≤ hi → toInt (ofNat n) = n) (z : Int) :
    (if v.isUInt = false then .error e else if v.isInt = false then .error e' else if v.asInt > hi
      then .error e''
      else (.ok (ofNat v.asInt.toNat) : Except RpcErr β)).map toInt = .ok z ↔ q = z ∧ 0 ≤ z ∧
          z ≤ hi := by
  refine accepts_iff ?_ ?_ z
  · rintro w rfl hlo hhi
    have huint : v.isUInt = true := (isIntegral_iff hnum).mpr ⟨w, rfl, hlo, by omega⟩
    have hisInt : v.isInt = true := (isIntegral_iff hnum).mpr ⟨w, rfl, by omega, by omega⟩
    have hsmall : ¬ v.asInt > hi := by
      rw [asInt_eq hnum]
      omega
    refine ⟨ofNat v.asInt.toNat, ?_, ?_⟩
    · rw [huint, hisInt, if_neg (by simp), if_neg (by simp), if_neg hsmall]
    · rw [asInt_eq hnum, hof _ (by omega)]
      omega
  · intro hno
    split
    · exact ⟨_, rfl⟩
    · rename_i huint
      split
      · exact ⟨_, rfl⟩
      · obtain ⟨w, rfl, hlo, hhi⟩ := (isIntegral_iff hnum).mp (Bool.eq_true_of_not_eq_false huint)
        rw [asInt_eq hnum, if_pos (not_le.mp fun hle => hno ⟨w, rfl, hlo, hle⟩)]
        exact ⟨_, rfl⟩

theorem byteOf_iff (hnum : v.num? = some q) (name : String) (z : Int) :
    (byteOf v name).map (fun n => (n.toNat : Int)) = .ok z ↔ q = z ∧ 0 ≤ z ∧ z ≤ 2 ^ 8 - 1 := by
  refine narrowOf_iff hnum (by decide) (fun n hn => ?_) z
  rw [UInt8.toNat_ofNat']
  omega

theorem uint16Of_iff (hnum : v.num? = some q) (name : String) (z : Int) :
    (uint16Of v name).map (fun n => (n.toNat : Int)) = .ok z ↔ q = z ∧ 0 ≤ z ∧ z ≤ 2 ^ 16 - 1 := by
  refine narrowOf_iff hnum (by decide) (fun n hn => ?_) z
  rw [UInt16.toNat_ofNat']
  omega

theorem uint32Of_iff (hnum : v.num? = some q) (name : String) (z : Int) :
    (uint32Of v name).map (fun n => (n.toNat : Int)) = .ok z ↔ q = z ∧ 0 ≤ z ∧ z ≤ 2 ^ 32 - 1 := by
  refine accepts_iff ?_ ?_ z
  · rintro w rfl hlo hhi
    have huint : v.isUInt = true := (isIntegral_iff hnum).mpr ⟨w, rfl, hlo, hhi⟩
    refine ⟨UInt32.ofNat v.asInt.toNat, by rw [uint32Of, huint, if_neg (by simp)], ?_⟩
    rw [asInt_eq hnum, UInt32.toNat_ofNat']
    omega
  · intro hno
    rw [uint32Of, if_pos]
    · exact ⟨_, rfl⟩
    · exact Bool.eq_false_iff.mpr fun huint => hno ((isIntegral_iff hnum).mp huint)

/-- **`isInt64` accepts only the lower half** of the numbers. -/
theorem uint64Of_iff (hnum : v.num? = some q) (name : String) (z : Int) :
    (uint64Of v name).map (fun n => (n.toNat : Int)) = .ok z ↔ q = z ∧ 0 ≤ z ∧ z ≤ 2 ^ 63 - 1 := by
  refine accepts_iff ?_ ?_ z
  · rintro w rfl hlo hhi
    have hint : v.isIntegral (-2 ^ 63) (2 ^ 63 - 1) = true :=
      (isIntegral_iff hnum).mpr ⟨w, rfl, by omega, hhi⟩
    have hpos : ¬ v.asInt < 0 := by
      rw [asInt_eq hnum]
      omega
    refine ⟨UInt64.ofNat v.asInt.toNat, by rw [uint64Of, hint, if_neg (by simp), if_neg hpos], ?_⟩
    rw [asInt_eq hnum, UInt64.toNat_ofNat']
    omega
  · intro hno
    rw [uint64Of]
    split
    · exact ⟨_, rfl⟩
    · rename_i hint
      obtain ⟨w, rfl, hlo, hhi⟩ := (isIntegral_iff hnum).mp (Bool.eq_true_of_not_eq_false hint)
      rw [asInt_eq hnum, if_pos (not_le.mp fun hle => hno ⟨w, rfl, hle, hhi⟩)]
      exact ⟨_, rfl⟩

theorem intOf_iff (hnum : v.num? = some q) (name : String) (z : Int) :
    (intOf v name).map Int32.toInt = .ok z ↔ q = z ∧ -2 ^ 31 ≤ z ∧ z ≤ 2 ^ 31 - 1 := by
  refine accepts_iff ?_ ?_ z
  · rintro w rfl hlo hhi
    have hint : v.isInt = true := (isIntegral_iff hnum).mpr ⟨w, rfl, hlo, hhi⟩
    refine ⟨Int32.ofInt v.asInt, by rw [intOf, hint, if_neg (by simp)], ?_⟩
    rw [asInt_eq hnum, Int32.toInt_ofInt]
    exact Int.bmod_eq_of_le (by rw [Int32.size]; omega) (by rw [Int32.size]; omega)
  · intro hno
    rw [intOf, if_pos]
    · exact ⟨_, rfl⟩
    · exact Bool.eq_false_iff.mpr fun hint => hno ((isIntegral_iff hnum).mp hint)

/-! ## 3. The calls -/

/-- A member that is a number is there. -/
theorem checkField_eq {parent : Json} (hnum : (parent.field name).num? = some q) :
    checkField parent name = .ok (parent.field name) := by
  cases parent with
  | object members =>
    rw [checkField, Json.isObject, if_neg (by simp)]
    cases hv : (Json.object members).field name with
    | null =>
      rw [hv] at hnum
      cases hnum
    | _ => rfl
  | _ => cases hnum

/-- An element that is a number is there. -/
theorem checkElement_eq {parent : Json} {index : Nat} (hnum : (parent.at index).num? = some q) :
    checkElement parent index = .ok (parent.at index) := by
  cases parent with
  | array vs =>
    rw [Json.at] at hnum
    rw [checkElement, Json.at]
    cases hv : vs.getD index .null with
    | null =>
      rw [hv] at hnum
      cases hnum
    | _ => rfl
  | _ => cases hnum

/-- A call returns what its checks make of a field that is there. -/
theorem bind_map_iff {x : Except RpcErr Json} {f : Json → Except RpcErr β} {P : Prop}
    (hx : x = .ok v) (hf : (f v).map toInt = .ok z ↔ P) :
    (x >>= f).map toInt = .ok z ↔ P := by
  rw [hx]
  exact hf

/-- What a call returns: the integers of its C type, but of a `uint64_t` only those below `2 ^
63`. -/
theorem IntCall.run_iff (c : IntCall) (parent : Json) (hnum : (c.field parent).num? = some q)
    (z : Int) :
    c.run parent = .ok z ↔ q = z ∧ c.least ≤ z ∧ z ≤ c.greatest ∧ (c.IsUInt64 → z < 2 ^ 63) := by
  cases c with
  | byte name =>
    refine (bind_map_iff (checkField_eq hnum) (byteOf_iff hnum name z)).trans ?_
    simp [least, greatest, IsUInt64]
  | byteAt index =>
    refine (bind_map_iff (checkElement_eq hnum) (byteOf_iff hnum (elementName index) z)).trans ?_
    simp [least, greatest, IsUInt64]
  | uint16 name =>
    refine (bind_map_iff (checkField_eq hnum) (uint16Of_iff hnum name z)).trans ?_
    simp [least, greatest, IsUInt64]
  | uint16At index =>
    refine (bind_map_iff (checkElement_eq hnum) (uint16Of_iff hnum (elementName index) z)).trans ?_
    simp [least, greatest, IsUInt64]
  | uint32 name =>
    refine (bind_map_iff (checkField_eq hnum) (uint32Of_iff hnum name z)).trans ?_
    simp [least, greatest, IsUInt64]
  | uint32At index =>
    refine (bind_map_iff (checkElement_eq hnum) (uint32Of_iff hnum (elementName index) z)).trans ?_
    simp [least, greatest, IsUInt64]
  | uint64 name =>
    refine (bind_map_iff (checkField_eq hnum) (uint64Of_iff hnum name z)).trans ?_
    simp only [least, greatest, IsUInt64, forall_const]
    refine and_congr_right fun _ => ?_
    omega
  | uint64At index =>
    refine (bind_map_iff (checkElement_eq hnum) (uint64Of_iff hnum (elementName index) z)).trans ?_
    simp only [least, greatest, IsUInt64, forall_const]
    refine and_congr_right fun _ => ?_
    omega
  | int name =>
    refine (bind_map_iff (checkField_eq hnum) (intOf_iff hnum name z)).trans ?_
    simp [least, greatest, IsUInt64]

/-- **A call is exact unless it is one of `parse_uint64` and the number is an integer in the upper
half** of the range of a `uint64_t`. -/
theorem IntCall.exact_iff (c : IntCall) (parent : Json) (q : Rat)
    (hnum : (c.field parent).num? = some q) :
    c.Exact parent q ↔ ¬ (c.IsUInt64 ∧ ∃ z : Int, q = z ∧ 2 ^ 63 ≤ z ∧ z < 2 ^ 64) := by
  have hgreatest : c.IsUInt64 → c.least = 0 ∧ c.greatest = 2 ^ 64 - 1 := by
    intro h
    cases c with
    | uint64 _ | uint64At _ => exact ⟨rfl, rfl⟩
    | _ => exact absurd h id
  refine ⟨?_, ?_⟩
  · rintro hexact ⟨huint64, z, hq, hlo, hhi⟩
    obtain ⟨hleast, hgreat⟩ := hgreatest huint64
    have hok := (hexact z).mpr ⟨hq, by omega, by omega⟩
    have hsmall := ((c.run_iff parent hnum z).mp hok).2.2.2 huint64
    omega
  · intro hno z
    rw [c.run_iff parent hnum]
    refine ⟨fun h => ⟨h.1, h.2.1, h.2.2.1⟩, fun h => ⟨h.1, h.2.1, h.2.2, fun huint64 => ?_⟩⟩
    obtain ⟨hleast, hgreat⟩ := hgreatest huint64
    by_contra hlarge
    exact hno ⟨huint64, z, h.1, by omega, by omega⟩

/-- A port number. -/
theorem IntCall.exact_iff_port : (byte "port_id").Exact (.object [("port_id", .uint 3)]) 3 :=
  (exact_iff _ _ 3 rfl).mpr fun h => h.1

/-- **The number `2 ^ 63`** is one of a `uint64_t`, and `parse_uint64` refuses it. -/
theorem IntCall.uint64_not_exact :
    ¬ (uint64 "total_pkts").Exact (.object [("total_pkts", .uint (2 ^ 63))]) (2 ^ 63) := by
  intro hexact
  have hok := (hexact (2 ^ 63)).mpr ⟨by norm_num, by decide, by decide⟩
  have hlt := ((uint64 "total_pkts").run_iff _ rfl _).mp hok |>.2.2.2 trivial
  exact absurd hlt (by decide)

end Numbers

end Trex.Rpc
