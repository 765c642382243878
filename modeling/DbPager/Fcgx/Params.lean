import DbPager.Fcgx.Reader

/-!
# Name-value pairs

The parameters of a request are pairs of a name and a value, each preceded by
its length in one byte or in four.  They are collected in a vector of strings
of the form `name=value`, which doubles when it is full.
-/

namespace DbPager.Fcgx

open Effect

/-- `Params`: the strings before `cur`, and for how many pointers there is
room.  The pointer behind the last string is always there. -/
structure Params where
  vec : List Bytes
  length : Nat
  room : vec.length < length

namespace Params

/-- `NewParams`. -/
def new (length : Nat) (positive : 0 < length) : Params :=
  { vec := [], length, room := positive }

/-- `PutParam`. -/
def put (params : Params) (nameValue : Bytes) : Params where
  vec := params.vec ++ [nameValue]
  length :=
    if params.length ≤ params.vec.length + 1 then params.length * 2
    else params.length
  room := by
    have before := params.room
    rw [List.length_append, List.length_singleton]
    split <;> omega

def putAll (params : Params) (entries : List Bytes) : Params :=
  entries.foldl put params

@[simp] theorem vec_put (params : Params) (nameValue : Bytes) :
    (params.put nameValue).vec = params.vec ++ [nameValue] := rfl

theorem vec_putAll (params : Params) (entries : List Bytes) :
    (params.putAll entries).vec = params.vec ++ entries := by
  induction entries generalizing params with
  | nil => simp [putAll]
  | cons entry entries induction =>
      change ((params.put entry).putAll entries).vec = _
      rw [induction, vec_put, List.append_assoc]
      rfl

end Params

/-- The character between a name and its value. -/
def equalsSign : UInt8 := 61

/-- The largest `int`, as a size. -/
def intMax : Nat := 2147483647

section Reading

variable (fill : Conn → C Conn)

/-- The length that the given byte starts: one byte, or four if the highest
bit is set. -/
def readLength (first : UInt8) (conn : Conn) : C (Option Nat × Conn) :=
  if first.toNat < 128 then .value (some first.toNat, conn)
  else do
    match ← getStr fill 3 conn with
    | ([third, second, last], conn) =>
        pure (some ((first.toNat - 128) * 16777216 + third.toNat * 65536 +
          second.toNat * 256 + last.toNat), conn)
    | (_, conn) => pure (none, conn)

/-- One pair, of which the first byte has been read.  A size that does not
fit into an `int` is not defined. -/
def readParam (first : UInt8) (conn : Conn) : C (Option Bytes × Conn) := do
  match ← readLength fill first conn with
  | (none, conn) => pure (none, conn)
  | (some nameLen, conn) =>
      match ← getChar fill conn with
      | (none, conn) => pure (none, conn)
      | (some second, conn) =>
          match ← readLength fill second conn with
          | (none, conn) => pure (none, conn)
          | (some valueLen, conn) =>
              if intMax < nameLen + valueLen + 2 then .halt .fault
              else
                let (name, conn) ← getStr fill nameLen conn
                if name.length ≠ nameLen then pure (none, conn)
                else
                  let (value, conn) ← getStr fill valueLen conn
                  if value.length ≠ valueLen then pure (none, conn)
                  else pure (some (name ++ equalsSign :: value), conn)

/-- The loop of `ReadParams`.  The end of the stream ends it without an error,
whatever has closed the stream. -/
def readParamsLoop : Nat → Params → Conn → C (Bool × Params × Conn)
  | 0, _, _ => .halt .timeout
  | fuel + 1, params, conn => do
      match ← getChar fill conn with
      | (none, conn) => pure (true, params, conn)
      | (some first, conn) =>
          match ← readParam fill first conn with
          | (none, conn) => pure (false, params, conn.setError paramsError)
          | (some nameValue, conn) =>
              readParamsLoop fuel (params.put nameValue) conn

/-- `ReadParams`: whether it has not returned `-1`. -/
def readParams (params : Params) (conn : Conn) : C (Bool × Params × Conn) :=
  readParamsLoop fill (conn.pending.length + 1) params conn

end Reading

/-! ## Writing pairs -/

/-- A length in four bytes, or in one where it fits and is wanted so. -/
def lengthBytes (long : Bool) (length : Nat) : Bytes :=
  if long ∨ 128 ≤ length then
    [UInt8.ofNat (128 + length / 16777216), byteOf length 2, byteOf length 1,
      byteOf length 0]
  else [UInt8.ofNat length]

/-- A parameter as a web server writes it. -/
structure Pair where
  name : Bytes
  value : Bytes
  nameLong : Bool
  valueLong : Bool
  fits : name.length + value.length + 2 ≤ intMax

namespace Pair

def bytes (pair : Pair) : Bytes :=
  lengthBytes pair.nameLong pair.name.length ++
    lengthBytes pair.valueLong pair.value.length ++ pair.name ++ pair.value

/-- The string that is put into the environment block. -/
def entry (pair : Pair) : Bytes :=
  pair.name ++ equalsSign :: pair.value

end Pair

theorem lengthBytes_ne_nil (long : Bool) (length : Nat) :
    lengthBytes long length ≠ [] := by
  unfold lengthBytes
  split <;> simp

section Sources

variable {fill : Conn → C Conn} {Holds : Conn → Bytes → Prop}
  {Ended : Conn → Prop} {conn : Conn}

/-- A length is read back, in either form. -/
theorem readLength_eq (source : Source fill Holds) {long : Bool}
    {length : Nat} (fits : length ≤ intMax) {first : UInt8} {more content : Bytes}
    (split : lengthBytes long length = first :: more)
    (holds : Holds conn (more ++ content)) :
    ∃ next, readLength fill first conn = .value (some length, next) ∧
      Holds next content := by
  unfold lengthBytes at split
  unfold intMax at fits
  by_cases wide : long = true ∨ 128 ≤ length
  · rw [if_pos wide] at split
    obtain ⟨rfl, rfl⟩ := List.cons.inj split
    obtain ⟨next, got, held⟩ := source.getStr_eq 3 holds (by simp)
    have high : ¬ (UInt8.ofNat (128 + length / 16777216)).toNat < 128 := by
      rw [UInt8.toNat_ofNat']
      omega
    refine ⟨next, ?_, held⟩
    unfold readLength
    rw [if_neg high, got]
    simp only [List.cons_append, List.take_succ_cons, List.take_zero,
      Outcome.value_bind]
    change Outcome.value _ = _
    simp only [byteOf, UInt8.toNat_ofNat', Outcome.value.injEq, Prod.mk.injEq,
      Option.some.injEq, and_true]
    omega
  · rw [if_neg wide] at split
    obtain ⟨rfl, rfl⟩ := List.cons.inj split
    have short : (UInt8.ofNat length).toNat = length := by
      rw [UInt8.toNat_ofNat']
      omega
    refine ⟨conn, ?_, holds⟩
    unfold readLength
    rw [short, if_pos (by omega)]

/-- A pair is read back. -/
theorem readParam_eq (source : Source fill Holds) (pair : Pair) {first : UInt8}
    {more content : Bytes} (split : pair.bytes = first :: more)
    (holds : Holds conn (more ++ content)) :
    ∃ next, readParam fill first conn = .value (some pair.entry, next) ∧
      Holds next content := by
  have fits := pair.fits
  cases nameBytes : lengthBytes pair.nameLong pair.name.length with
  | nil => exact absurd nameBytes (lengthBytes_ne_nil _ _)
  | cons nameFirst nameMore =>
      cases valueBytes : lengthBytes pair.valueLong pair.value.length with
      | nil => exact absurd valueBytes (lengthBytes_ne_nil _ _)
      | cons valueFirst valueMore =>
          unfold Pair.bytes at split
          rw [nameBytes, valueBytes] at split
          simp only [List.cons_append, List.append_assoc] at split
          obtain ⟨rfl, rfl⟩ := List.cons.inj split
          simp only [List.append_assoc, List.cons_append] at holds
          obtain ⟨one, nameLength, held⟩ := readLength_eq source (by omega)
            nameBytes holds
          obtain ⟨two, gotFirst, held⟩ := source.getChar_next held
          obtain ⟨three, valueLength, held⟩ := readLength_eq source (by omega)
            valueBytes held
          obtain ⟨four, gotName, held⟩ := source.getStr_eq
            pair.name.length held (by simp)
          rw [List.take_left, List.drop_left] at *
          obtain ⟨five, gotValue, held⟩ := source.getStr_eq
            pair.value.length held (by simp)
          rw [List.take_left, List.drop_left] at *
          refine ⟨five, ?_, held⟩
          unfold readParam
          simp only [nameLength, gotFirst, valueLength, gotName, gotValue,
            Outcome.value_bind, ne_eq, not_true, if_false]
          rw [if_neg (Nat.not_lt.mpr fits)]
          rfl

/-- Every list of pairs is read back, in order, up to the end of the
stream. -/
theorem readParams_eq (source : Source fill Holds)
    (ends : Ends fill Holds Ended) (pairs : List Pair) (params : Params)
    (holds : Holds conn (pairs.flatMap Pair.bytes)) :
    ∃ closed, readParams fill params conn =
        .value (true, params.putAll (pairs.map Pair.entry), closed) ∧
      Ended closed := by
  unfold readParams
  have enough := source.enough holds
  generalize budget : conn.pending.length = fuel at enough
  clear budget
  induction pairs generalizing conn params fuel with
  | nil =>
      obtain ⟨closed, got, ended⟩ := source.getChar_end ends holds
      refine ⟨closed, ?_, ended⟩
      unfold readParamsLoop
      rw [got]
      rfl
  | cons pair pairs induction =>
      rw [List.flatMap_cons] at holds enough
      cases bytes : pair.bytes with
      | nil =>
          unfold Pair.bytes at bytes
          simp [lengthBytes_ne_nil] at bytes
      | cons first more =>
          rw [bytes, List.cons_append] at holds
          obtain ⟨one, got, held⟩ := source.getChar_next holds
          obtain ⟨two, read, held⟩ := readParam_eq source pair bytes held
          obtain ⟨fuel, rfl⟩ : ∃ less, fuel = less + 1 := by
            refine ⟨fuel - 1, ?_⟩
            simp only [bytes, List.cons_append, List.length_cons] at enough
            omega
          obtain ⟨closed, ran, ended⟩ := induction (params.put pair.entry)
            held fuel (by
              simp only [bytes, List.cons_append, List.length_cons,
                List.length_append] at enough
              omega)
          refine ⟨closed, ?_, ended⟩
          rw [readParamsLoop, got]
          simp only [Outcome.value_bind, read]
          exact ran

end Sources

end DbPager.Fcgx
