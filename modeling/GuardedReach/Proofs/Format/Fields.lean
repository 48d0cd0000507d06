/-
  Fields — the JSON forms of plain values and of records are decoded to what they were made of.

  1. **Numbers** — an integer within the range of a field is taken by that field.  Words of 8, 32 and
     64 bits always are; a count must be below `2^64`.

  2. **Lists and records** — a list is decoded if each of its items is.  The members of a record that
     is written with its own field names, each once, are its fields (`record?_record`), and each field
     is then found by its name.

  3. **Machine** — opcodes, instructions and states (`Instruction.ofJson?_toJson`,
     `State.ofJson?_toJson`).
-/
import GuardedReach.Format.Machine

namespace GuardedReach

namespace Json

/-! ## Numbers

    A number is taken by a field whose range it lies in, and the number of a word lies in the range of the
    word. -/

/-- A natural number below the limit of a field is taken by that field. -/
theorem natBelow?_ofNat {limit n : Nat} (h : n < limit) : (ofNat n).natBelow? limit = some n := by
  have hrange : (0 : Int) ≤ n ∧ (n : Int) < limit := by omega
  show (if 0 ≤ (n : Int) ∧ (n : Int) < limit then some (n : Int).toNat else none) = some n
  rw [if_pos hrange, Int.toNat_natCast]

/-- A word of 8 bits always is, -/
theorem uint8?_ofNat (value : UInt8) : (ofNat value.toNat).uint8? = some value := by
  unfold uint8?
  rw [natBelow?_ofNat value.toNat_lt_size, Option.map_some, UInt8.ofNat_toNat]

/-- one of 32 bits is, -/
theorem uint32?_ofNat (value : UInt32) : (ofNat value.toNat).uint32? = some value := by
  unfold uint32?
  rw [natBelow?_ofNat value.toNat_lt_size, Option.map_some, UInt32.ofNat_toNat]

/-- and one of 64 bits is. -/
theorem uint64?_ofNat (value : UInt64) : (ofNat value.toNat).uint64? = some value := by
  unfold uint64?
  rw [natBelow?_ofNat value.toNat_lt_size, Option.map_some, UInt64.ofNat_toNat]

/-- A counter has the range of a word of 64 bits, though it is kept as a natural number. -/
theorem count?_ofNat {count : Nat} (h : count < UInt64.size) : (ofNat count).count? = some count :=
  natBelow?_ofNat h

/-- Signed words are decoded through the integers, where the sign is. -/
theorem int64?_ofInt (value : Int64) : (ofInt value.toInt).int64? = some value :=
  wordOfInt?_toInt value

/-! ## Lists and records

    A list is decoded if its items are.  A record is looked through by name, so what is proved of it is that
    its fields are found, whatever their order. -/

@[simp] theorem string?_ofString (value : String) : (ofString value).string? = some value := rfl

/-- A list is decoded item by item. -/
theorem list?_ofList {α : Type} {encode : α → Json} {decode : Json → Option α} {items : List α}
    (h : ∀ a ∈ items, decode (encode a) = some a) : (ofList encode items).list? decode = some items := by
  show (items.map encode).mapM decode = some items
  induction items with
  | nil => rfl
  | cons a items ih =>
    have hrest := ih fun b hb => h b (List.mem_cons_of_mem _ hb)
    rw [List.map_cons, List.mapM_cons, h a (List.mem_cons_self ..), hrest]
    rfl

/-- Every member of a record that was written with names has a name. -/
theorem mapM_named? (members : List (String × Json)) :
    (members.map fun member => (some member.1, member.2)).mapM named? = some members := by
  induction members with
  | nil => rfl
  | cons member members ih =>
    rw [List.map_cons, List.mapM_cons, ih]
    rfl

/-- The fields of a record are its members. -/
theorem record?_record (names : List String) {members : List (String × Json)}
    (hnames : members.map Prod.fst = names) (hdistinct : names.Nodup) :
    (record members).record? names = some members := by
  have hall : members.filter (fun member => names.contains member.1) = members := by
    rw [List.filter_eq_self]
    intro member hmember
    rw [← hnames]
    exact List.contains_iff_mem.mpr (List.mem_map_of_mem hmember)
  show (((members.map fun member => (some member.1, member.2)).mapM named?).bind _) = _
  rw [mapM_named?, Option.bind_some, hall, if_pos (by rw [hnames]; exact hdistinct)]

variable {α : Type} {name other : String}

/-- A required field is decoded from the first member of its name, -/
@[simp] theorem required_self (name : String) (value : Json) (fields : List (String × Json))
    (decode : Json → Option α) :
    required ((name, value) :: fields) name decode = decode value := by
  simp [required]

/-- and a member of another name is passed over. -/
@[simp] theorem required_of_ne (h : name ≠ other) (value : Json) (fields : List (String × Json))
    (decode : Json → Option α) :
    required ((other, value) :: fields) name decode = required fields name decode := by
  simp [required, List.lookup_cons, beq_false_of_ne h]

/-- So is an optional one, if it is there, -/
@[simp] theorem optional_self (name : String) (value : Json) (fields : List (String × Json))
    (absent : α) (decode : Json → Option α) :
    optional ((name, value) :: fields) name absent decode = decode value := by
  simp [optional]

/-- and is looked for no further than a required one. -/
@[simp] theorem optional_of_ne (h : name ≠ other) (value : Json) (fields : List (String × Json))
    (absent : α) (decode : Json → Option α) :
    optional ((other, value) :: fields) name absent decode = optional fields name absent decode := by
  simp [optional, List.lookup_cons, beq_false_of_ne h]

end Json

/-! ## Machine

    With the fields at hand, each of the machine's forms takes one unfolding. -/

/-- An opcode is written as its name. -/
theorem Opcode.ofJson?_toJson (opcode : Opcode) : ofJson? opcode.toJson = some opcode :=
  ofName?_name opcode

/-- An instruction is written with all four fields, also those that its opcode does not look at. -/
theorem Instruction.ofJson?_toJson (ins : Instruction) : ofJson? ins.toJson = some ins := by
  unfold ofJson? toJson
  rw [Json.record?_record fieldNames rfl (by decide)]
  simp [Opcode.ofJson?_toJson, Json.uint8?_ofNat, Json.int64?_ofInt]

/-- A state is written as the list of its active registers, which tells its width. -/
theorem State.ofJson?_toJson (s : State) : ofJson? s.toJson = some s := by
  unfold ofJson? toJson
  rw [Json.list?_ofList fun value _ => Json.int64?_ofInt value]
  show (ofList s.active).toOption = some s
  rw [ofList_active]
  rfl

end GuardedReach
