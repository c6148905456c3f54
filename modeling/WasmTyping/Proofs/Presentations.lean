import WasmTyping.Form.Module
import WasmTyping.Proofs.OperatorNames
import WasmTyping.Proofs.Records

/-!
# Presentations of modules

Which values present each kind of declaration, each operator and a whole module. Every reader of the
JSON form accepts exactly the presentations of its result, with one limit: an operator is taken in
whole, so it must be readable as well.
-/

namespace WasmTyping

open Form

namespace Form

/-! ## Numbers -/

def Verbatim {α : Type} (write : α → Json) (x : α) (j : Json) : Prop := j = write x

theorem reads_bool : Reads readBool? (Verbatim Json.bool) := by
  intro b j
  cases j <;> simp [readBool?, Verbatim]

theorem readInt?_eq_some_iff {j : Json} {n : Int} :
    readInt? j = some n ↔ j = .ofInt n ∧ -Nat.pow 2 63 ≤ n ∧ n < UInt64.size := by
  constructor
  · intro h
    unfold readInt? at h
    split at h
    next =>
      unfold Json.Number.toInt? at h
      split at h
      next m =>
        split at h
        next hsize =>
          cases h
          exact ⟨by simp [Json.ofInt], by omega, by omega⟩
        next => cases h
      next m =>
        split at h
        next hsize =>
          cases h
          exact ⟨by simp [Json.ofInt, hsize.1], by omega, by omega⟩
        next => cases h
      next => cases h
    next => cases h
  · rintro ⟨rfl, hlow, hhigh⟩
    rcases Int.lt_or_le n 0 with hneg | hpos
    · have hsize : 0 < n.natAbs ∧ n.natAbs ≤ Nat.pow 2 63 := by omega
      simp only [readInt?, Json.ofInt, Json.Number.toInt?, hneg, decide_true, if_pos hsize]
      rw [Int.ofNat_natAbs_of_nonpos (by omega), Int.neg_neg]
    · have hsize : n.natAbs < UInt64.size := by omega
      have hsign : decide (n < 0) = false := by simpa using hpos
      simp only [readInt?, Json.ofInt, Json.Number.toInt?, hsign, if_pos hsize]
      rw [Int.natAbs_of_nonneg hpos]

theorem readNat?_eq_some_iff {bound n : Nat} (hbound : bound < UInt64.size) {j : Json} :
    readNat? bound j = some n ↔ j = .ofNat n ∧ n ≤ bound := by
  have hread : readNat? bound j = some n ↔ readInt? j = some (n : Int) ∧ n ≤ bound := by
    unfold readNat?
    split
    next m hm =>
      rw [hm]
      simp
      omega
    next hother =>
      simp only [reduceCtorEq, false_iff]
      exact fun h => hother n h.1
  have hwrite : Json.ofInt n = .ofNat n := by simp [Json.ofInt, Json.ofNat]
  rw [hread, readInt?_eq_some_iff, hwrite]
  constructor
  · rintro ⟨⟨rfl, -⟩, hle⟩
    exact ⟨rfl, hle⟩
  · rintro ⟨rfl, hle⟩
    exact ⟨⟨rfl, by omega, by omega⟩, hle⟩

theorem reads_unsigned {α : Type} {bound : Nat} {ofNat : Nat → α} {toNat : α → Nat}
    (hbound : bound < UInt64.size) (hle : ∀ x, toNat x ≤ bound) (hofNat : ∀ x, ofNat (toNat x) = x)
    (htoNat : ∀ n ≤ bound, toNat (ofNat n) = n) :
    Reads (fun j => (readNat? bound j).map ofNat) (Verbatim fun x => .ofNat (toNat x)) := by
  intro x j
  simp only [Option.map_eq_some_iff, readNat?_eq_some_iff hbound, Verbatim]
  constructor
  · rintro ⟨n, ⟨rfl, hn⟩, rfl⟩
    rw [htoNat n hn]
  · rintro rfl
    exact ⟨toNat x, ⟨rfl, hle x⟩, hofNat x⟩

theorem reads_u8 : Reads readU8? (Verbatim fun n => .ofNat n.toNat) :=
  reads_unsigned (by decide) (fun n => Nat.le_sub_one_of_lt n.toNat_lt_size)
    (fun _ => UInt8.ofNat_toNat)
    fun _ hn => UInt8.toNat_ofNat_of_lt' (Nat.lt_of_le_pred (by decide) hn)

theorem reads_u32 : Reads readU32? (Verbatim fun n => .ofNat n.toNat) :=
  reads_unsigned (by decide) (fun n => Nat.le_sub_one_of_lt n.toNat_lt_size)
    (fun _ => UInt32.ofNat_toNat)
    fun _ hn => UInt32.toNat_ofNat_of_lt' (Nat.lt_of_le_pred (by decide) hn)

theorem reads_u64 : Reads readU64? (Verbatim fun n => .ofNat n.toNat) :=
  reads_unsigned (by decide) (fun n => Nat.le_sub_one_of_lt n.toNat_lt_size)
    (fun _ => UInt64.ofNat_toNat)
    fun _ hn => UInt64.toNat_ofNat_of_lt' (Nat.lt_of_le_pred (by decide) hn)

theorem reads_signed {α : Type} {read? : Json → Option α} {low high : Int} {ofInt : Int → α}
    {toInt : α → Int} (hlow : -Nat.pow 2 63 ≤ low) (hhigh : high < UInt64.size)
    (hrange : ∀ x, low ≤ toInt x ∧ toInt x ≤ high) (hofInt : ∀ x, ofInt (toInt x) = x)
    (htoInt : ∀ n, low ≤ n → n ≤ high → toInt (ofInt n) = n)
    (hread : ∀ j, read? j = (readInt? j).bind fun n =>
      if low ≤ n ∧ n ≤ high then some (ofInt n) else none) :
    Reads read? (Verbatim fun x => .ofInt (toInt x)) := by
  intro x j
  simp only [hread, Option.bind_eq_some_iff, readInt?_eq_some_iff, Verbatim]
  constructor
  · rintro ⟨n, ⟨rfl, -⟩, hx⟩
    split at hx
    next hn =>
      cases hx
      rw [htoInt n hn.1 hn.2]
    next => cases hx
  · rintro rfl
    have hx := hrange x
    exact ⟨toInt x, ⟨rfl, by omega, by omega⟩, by rw [if_pos hx, hofInt]⟩

theorem reads_i32 : Reads readI32? (Verbatim fun n => .ofInt n.toInt) :=
  reads_signed (by decide) (by decide) (fun n => ⟨n.minValue_le_toInt, n.toInt_le⟩)
    Int32.ofInt_toInt
    (fun _ hlow hhigh => Int32.toInt_ofInt_of_le hlow (Int.lt_of_le_of_lt hhigh (by decide)))
    fun j => by rw [readI32?]; cases readInt? j <;> rfl

theorem reads_i64 : Reads readI64? (Verbatim fun n => .ofInt n.toInt) :=
  reads_signed (by decide) (by decide) (fun n => ⟨n.minValue_le_toInt, n.toInt_le⟩)
    Int64.ofInt_toInt
    (fun _ hlow hhigh => Int64.toInt_ofInt_of_le hlow (Int.lt_of_le_of_lt hhigh (by decide)))
    fun j => by rw [readI64?]; cases readInt? j <;> rfl

end Form

/-! ## Types -/

theorem ValueType.ofName?_eq_some_iff {s : String} {t : ValueType} :
    ofName? s = some t ↔ s = t.name := by
  constructor
  · intro h
    have hname := List.find?_some h
    exact (beq_iff_eq.1 hname).symm
  · rintro rfl
    cases t <;> decide

inductive ValueType.PresentedBy (place : Place) (t : ValueType) : Json → Prop where
  | name : t.PresentedBy place (.ofString t.name)
  | entry {content : Json} (h : isNothing place content) :
    t.PresentedBy place (.object [(some t.name, content)])

theorem ValueType.reads (place : Place) : Reads (ofJson? place) (PresentedBy place) := by
  intro t j
  constructor
  · intro h
    unfold ofJson? at h
    split at h
    · obtain rfl := ofName?_eq_some_iff.1 h
      exact .name
    · split at h
      next hnothing =>
        obtain rfl := ofName?_eq_some_iff.1 h
        exact .entry hnothing
      next => cases h
    · cases h
  · rintro (_ | hnothing)
    · exact ofName?_eq_some_iff.2 rfl
    · simpa [ofJson?, hnothing] using ofName?_eq_some_iff.2 rfl

inductive BlockType.PresentedBy (place : Place) : BlockType → Json → Prop where
  | empty : PresentedBy place .empty (.ofString "empty")
  | emptyEntry {content : Json} (h : isNothing place content) :
    PresentedBy place .empty (.object [(some "empty", content)])
  | result {t : ValueType} {content : Json} (h : t.PresentedBy place content) :
    PresentedBy place (.result t) (.object [(some "type", content)])
  | func (i : UInt32) : PresentedBy place (.func i) (.object [(some "func_type", .ofNat i.toNat)])

theorem BlockType.reads (place : Place) : Reads (ofJson? place) (PresentedBy place) := by
  intro t j
  constructor
  · intro h
    unfold ofJson? at h
    split at h
    · split at h
      next hname =>
        subst hname
        cases h
        exact .empty
      next => cases h
    · split at h
      next hname =>
        subst hname
        split at h
        next hnothing =>
          cases h
          exact .emptyEntry hnothing
        next => cases h
      next =>
        split at h
        next hname =>
          subst hname
          obtain ⟨type, htype, rfl⟩ := Option.map_eq_some_iff.1 h
          exact .result ((ValueType.reads place type _).1 htype)
        next =>
          split at h
          next hname =>
            subst hname
            obtain ⟨i, hi, rfl⟩ := Option.map_eq_some_iff.1 h
            obtain rfl := (reads_u32 i _).1 hi
            exact .func i
          next => cases h
    · cases h
  · rintro (_ | hnothing | htype | i)
    · rfl
    · simp [ofJson?, hnothing]
    · simp [ofJson?, (ValueType.reads place _ _).2 htype]
    · simp [ofJson?, (reads_u32 i _).2 rfl]

def FuncType.fields (t : FuncType) : List Field :=
  [.optional "params" [] (ListPresentedBy (ValueType.PresentedBy .declaration)) t.params,
    .optional "results" [] (ListPresentedBy (ValueType.PresentedBy .declaration)) t.results]

theorem FuncType.decodes : Decodes ofJson? fieldNames [] fields := by
  have htypes := (ValueType.reads .declaration).list
  refine .of_record (by decide) (by simp) (fun _ => rfl) (by simp) ?_
  rintro ⟨params, results⟩ j
  simp [ofJson?, fields, Option.bind_eq_some_iff, htypes.optional_eq_some_iff]

def GlobalType.fields (t : GlobalType) : List Field :=
  [.required "type" (ValueType.PresentedBy .declaration) t.content,
    .optional "mutable" false (Verbatim .bool) t.mutable]

theorem GlobalType.decodes : Decodes ofJson? fieldNames ["type"] fields := by
  refine .of_record (by decide) (by decide) (fun _ => rfl) (by simp [fields, Field.required]) ?_
  rintro ⟨content, mutable⟩ j
  simp [ofJson?, fields, Option.bind_eq_some_iff, (ValueType.reads _).required_eq_some_iff,
    reads_bool.optional_eq_some_iff]

def MemoryType.fields (t : MemoryType) : List Field :=
  [.optional "memory64" false (Verbatim .bool) t.memory64,
    .optional "initial" 0 (Verbatim fun n => .ofNat n.toNat) t.initial,
    .optional "maximum" none (NullablePresentedBy (Verbatim fun n => .ofNat n.toNat)) t.maximum]

theorem MemoryType.decodes : Decodes ofJson? fieldNames [] fields := by
  have hmaximum := reads_u64.nullable rfl
  refine .of_record (by decide) (by decide) (fun _ => rfl) (by simp) ?_
  rintro ⟨memory64, initial, maximum⟩ j
  simp [-Bool.exists_bool, ofJson?, fields, Option.bind_eq_some_iff, reads_bool.optional_eq_some_iff,
    reads_u64.optional_eq_some_iff, hmaximum.optional_eq_some_iff]

def TableType.fields (t : TableType) : List Field :=
  [.optional "initial" 0 (Verbatim fun n => .ofNat n.toNat) t.initial,
    .optional "maximum" none (NullablePresentedBy (Verbatim fun n => .ofNat n.toNat)) t.maximum]

theorem TableType.decodes : Decodes ofJson? fieldNames [] fields := by
  have hmaximum := reads_u32.nullable rfl
  refine .of_record (by decide) (by decide) (fun _ => rfl) (by simp) ?_
  rintro ⟨initial, maximum⟩ j
  simp [ofJson?, fields, Option.bind_eq_some_iff, reads_u32.optional_eq_some_iff,
    hmaximum.optional_eq_some_iff]

def MemArg.fields (a : MemArg) : List Field :=
  [.required "align" (Verbatim fun n => .ofNat n.toNat) a.align,
    .optional "offset" 0 (Verbatim fun n => .ofNat n.toNat) a.offset,
    .optional "memory" 0 (Verbatim fun n => .ofNat n.toNat) a.memory]

theorem MemArg.decodes : Decodes ofJson? fieldNames ["align"] fields := by
  refine .of_record (by decide) (by decide) (fun _ => rfl) (by simp [fields, Field.required]) ?_
  rintro ⟨align, offset, memory⟩ j
  simp [ofJson?, fields, Option.bind_eq_some_iff, reads_u8.required_eq_some_iff,
    reads_u64.optional_eq_some_iff, reads_u32.optional_eq_some_iff]

def BranchTable.fields (t : BranchTable) : List Field :=
  [.optional "targets" [] (ListPresentedBy (Verbatim fun d => .ofNat d.toNat)) t.targets,
    .required "default" (Verbatim fun d => .ofNat d.toNat) t.fallback]

theorem BranchTable.decodes : Decodes ofJson? fieldNames ["default"] fields := by
  refine .of_record (by decide) (by decide) (fun _ => rfl) (by simp [fields, Field.required]) ?_
  rintro ⟨targets, fallback⟩ j
  simp [ofJson?, fields, Option.bind_eq_some_iff, reads_u32.list.optional_eq_some_iff,
    reads_u32.required_eq_some_iff]

/-! ## Operators -/

theorem Mnemonic.nodup_fieldNames (m : Mnemonic) : ("op" :: m.fieldNames).Nodup := by
  cases m <;> simp [fieldNames]

namespace Operator

def immediateFields : Operator → List Field
  | .enter _ type => [.required "blockty" (BlockType.PresentedBy .operator) type]
  | .br d | .brIf d => [.required "relative_depth" (Verbatim fun n => .ofNat n.toNat) d]
  | .brTable table => [.required "table" (fun t => PresentedBy t.fields) table]
  | .call i => [.required "function_index" (Verbatim fun n => .ofNat n.toNat) i]
  | .callIndirect type table =>
    [.required "type_index" (Verbatim fun n => .ofNat n.toNat) type,
      .required "table_index" (Verbatim fun n => .ofNat n.toNat) table]
  | .localGet i | .localSet i | .localTee i =>
    [.required "local_index" (Verbatim fun n => .ofNat n.toNat) i]
  | .globalGet i | .globalSet i =>
    [.required "global_index" (Verbatim fun n => .ofNat n.toNat) i]
  | .load _ arg | .store _ arg => [.required "memarg" (fun a => PresentedBy a.fields) arg]
  | .memorySize i | .memoryGrow i => [.required "mem" (Verbatim fun n => .ofNat n.toNat) i]
  | .i32Const n => [.required "value" (Verbatim fun n => .ofInt n.toInt) n]
  | .i64Const n => [.required "value" (Verbatim fun n => .ofInt n.toInt) n]
  | .f32Const bits => [.required "value" (Verbatim fun n => .ofNat n.toNat) bits]
  | .f64Const bits => [.required "value" (Verbatim fun n => .ofNat n.toNat) bits]
  | .unreachable | .nop | .elseArm | .endBlock | .ret | .drop | .select | .numeric _ => []

def nameField (op : Operator) : Field :=
  .required "op" (Verbatim fun m : Mnemonic => .ofString m.name) op.mnemonic

def fields (op : Operator) : List Field := op.nameField :: op.immediateFields

theorem immediateFields_names (op : Operator) :
    op.immediateFields.map Field.name = op.mnemonic.fieldNames := by
  cases op <;> rfl

theorem fields_names (op : Operator) :
    op.fields.map Field.name = "op" :: op.mnemonic.fieldNames := by
  rw [fields, List.map_cons, immediateFields_names]
  rfl

theorem not_omissible (op : Operator) : ∀ f ∈ op.fields, ¬ f.Omissible := by
  cases op <;> simp [fields, nameField, immediateFields, Field.required]

theorem mnemonic_of_ofRecord? {r : Record} {m : Mnemonic} {op : Operator}
    (h : ofRecord? r m = some op) : op.mnemonic = m := by
  cases m with
  | callIndirect =>
    simp only [ofRecord?, Option.bind_eq_bind, Option.bind_eq_some_iff] at h
    obtain ⟨type, -, table, -, heq⟩ := h
    cases heq
    rfl
  | unreachable | nop | elseArm | endBlock | ret | drop | select | numeric =>
    cases h
    rfl
  | _ =>
    obtain ⟨x, -, rfl⟩ := Option.map_eq_some_iff.1 h
    rfl

theorem ofRecord?_mnemonic_iff {r : Record} {op : Operator} :
    ofRecord? r op.mnemonic = some op ↔
      ∀ f ∈ op.immediateFields, f.GivenBy (r.get? f.name).toList := by
  have htable := BranchTable.decodes.reads
  have harg := MemArg.decodes.reads
  have htype := BlockType.reads .operator
  cases op <;>
    simp [mnemonic, ofRecord?, immediateFields, Option.bind_eq_some_iff,
      reads_u32.required_eq_some_iff, reads_u64.required_eq_some_iff,
      reads_i32.required_eq_some_iff, reads_i64.required_eq_some_iff,
      htable.required_eq_some_iff, harg.required_eq_some_iff, htype.required_eq_some_iff]

theorem readMnemonic?_eq_some_iff {j : Json} {m : Mnemonic} :
    readMnemonic? j = some m ↔ j = .ofString m.name := by
  unfold readMnemonic?
  split
  next s =>
    rw [Mnemonic.ofName?_eq_some_iff]
    simp [Json.ofString]
  next hother =>
    simp only [reduceCtorEq, false_iff]
    exact fun h => hother m.name h

theorem guard_eq_some_iff {p : Prop} [Decidable p] {u : Unit} :
    (guard p : Option Unit) = some u ↔ p := by
  unfold guard
  split
  next hp => exact iff_of_true rfl hp
  next hp => exact iff_of_false (fun h => Option.some_ne_none u h.symm) hp

/-- The value presents the operator, and all of it can be taken in. -/
def PresentedBy (outside : Nat) (op : Operator) (j : Json) : Prop :=
  j.readable (maxNesting - outside) ∧ Form.PresentedBy op.fields j

theorem reads (outside : Nat) : Reads (ofJson? outside) (PresentedBy outside) := by
  intro op j
  obtain ⟨htag, hnames⟩ := List.nodup_cons.1 op.mnemonic.nodup_fieldNames
  have hrecord := exists_record_iff op.immediateFields_names hnames
  rw [← immediateFields_names] at htag
  rw [PresentedBy, fields, ← exists_splitTag_iff op.nameField op.immediateFields id htag]
  constructor
  · intro h
    obtain ⟨_, hguard, h⟩ := Option.bind_eq_some_iff.1 h
    obtain ⟨⟨tag, rest⟩, hsplit, h⟩ := Option.bind_eq_some_iff.1 h
    obtain ⟨m, hname, h⟩ := Option.bind_eq_some_iff.1 h
    obtain ⟨r, hr, hop⟩ := Option.bind_eq_some_iff.1 h
    -- The name that was found is the operator's own, so the fields that were read are its own too.
    obtain rfl := mnemonic_of_ofRecord? hop
    exact ⟨guard_eq_some_iff.1 hguard, tag, rest, hsplit, readMnemonic?_eq_some_iff.1 hname,
      (hrecord rest).1 ⟨r, hr, ofRecord?_mnemonic_iff.1 hop⟩⟩
  · rintro ⟨hreadable, tag, rest, hsplit, hname, hrest⟩
    obtain ⟨r, hr, hgiven⟩ := (hrecord rest).2 hrest
    refine Option.bind_eq_some_iff.2 ⟨(), guard_eq_some_iff.2 hreadable, ?_⟩
    refine Option.bind_eq_some_iff.2 ⟨(tag, rest), hsplit, ?_⟩
    refine Option.bind_eq_some_iff.2 ⟨op.mnemonic, readMnemonic?_eq_some_iff.2 hname, ?_⟩
    exact Option.bind_eq_some_iff.2 ⟨r, hr, ofRecord?_mnemonic_iff.2 hgiven⟩

end Operator

def Mnemonic.NamedBy (m : Mnemonic) : Json → Prop
  | .object entries => .ofString m.name ∈ valuesOf "op" entries
  | .array items => .ofString m.name ∈ items.head?
  | _ => False

theorem Operator.namedBy_of_presentedBy {op : Operator} {j : Json}
    (h : Form.PresentedBy op.fields j) : op.mnemonic.NamedBy j := by
  cases j with
  | null | bool | number | string => exact h
  | array items =>
    cases items with
    | nil => exact absurd h.1 id
    | cons item items =>
      obtain rfl : item = .ofString op.mnemonic.name := h.1
      rfl
  | object entries =>
    have hname := h.2 op.nameField List.mem_cons_self
    rw [nameField, Field.required_name] at hname
    match hvalues : valuesOf "op" entries with
    | [] => simp [hvalues, Field.GivenBy, Field.required] at hname
    | [value] =>
      rw [hvalues] at hname
      obtain rfl : value = .ofString op.mnemonic.name := hname
      simp [Mnemonic.NamedBy, hvalues]
    | _ :: _ :: _ => simp [hvalues, Field.GivenBy] at hname

theorem Operator.rejects (outside : Nat) {j : Json}
    (h : ∀ m : Mnemonic, m.NamedBy j → Malformed ("op" :: m.fieldNames) ("op" :: m.fieldNames) j) :
    ofJson? outside j = none := by
  cases hresult : ofJson? outside j with
  | none => rfl
  | some op =>
    obtain ⟨-, hpresented⟩ := (reads outside op j).1 hresult
    have hmalformed := h op.mnemonic (namedBy_of_presentedBy hpresented)
    exact absurd hpresented (not_presentedBy_of_malformed op.fields_names (List.Subset.refl _)
      (fun f hf _ => op.not_omissible f hf) hmalformed)

/-! ## Functions and modules -/

def Form.GroupPresentedBy (group : UInt32 × ValueType) (j : Json) : Prop :=
  ∃ type, j = .array [.ofNat group.1.toNat, type] ∧ group.2.PresentedBy .declaration type

theorem Form.reads_group : Reads readGroup? GroupPresentedBy := by
  rintro ⟨count, type⟩ j
  unfold readGroup?
  split
  next first second =>
    simp [GroupPresentedBy, Option.bind_eq_some_iff, reads_u32 _ _, ValueType.reads _ _ _, Verbatim]
  next hother =>
    simp only [reduceCtorEq, false_iff]
    rintro ⟨second, rfl, -⟩
    exact hother _ _ rfl

def FunctionDef.fields (outside : Nat) (f : FunctionDef) : List Field :=
  [.required "ty" (Verbatim fun n => .ofNat n.toNat) f.type,
    .optional "locals" [] (ListPresentedBy GroupPresentedBy) f.locals,
    .required "body" (ListPresentedBy (Operator.PresentedBy (outside + 2))) f.body]

theorem FunctionDef.decodes (outside : Nat) :
    Decodes (ofJson? outside) fieldNames ["ty", "body"] (fields outside) := by
  have hbody := (Operator.reads (outside + 2)).list
  refine .of_record (by decide) (by decide) (fun _ => rfl) (by simp [fields, Field.required]) ?_
  rintro ⟨type, locals, body⟩ j
  simp [ofJson?, fields, Option.bind_eq_some_iff, reads_u32.required_eq_some_iff,
    reads_group.list.optional_eq_some_iff, hbody.required_eq_some_iff]

def Module.fields (m : Module) : List Field :=
  [.optional "types" [] (ListPresentedBy fun t => PresentedBy t.fields) m.types,
    .optional "imported_functions" [] (ListPresentedBy (Verbatim fun i => .ofNat i.toNat)) m.imports,
    .optional "functions" [] (ListPresentedBy fun f => PresentedBy (f.fields 2)) m.functions,
    .optional "globals" [] (ListPresentedBy fun t => PresentedBy t.fields) m.globals,
    .optional "memories" [] (ListPresentedBy fun t => PresentedBy t.fields) m.memories,
    .optional "tables" [] (ListPresentedBy fun t => PresentedBy t.fields) m.tables]

theorem Module.decodes : Decodes ofJson? fieldNames [] fields := by
  refine .of_record (by decide) (by decide) (fun _ => rfl) (by simp) ?_
  rintro ⟨types, imports, functions, globals, memories, tables⟩ j
  simp [ofJson?, fields, Option.bind_eq_some_iff, FuncType.decodes.reads.list.optional_eq_some_iff,
    reads_u32.list.optional_eq_some_iff, (FunctionDef.decodes 2).reads.list.optional_eq_some_iff,
    GlobalType.decodes.reads.list.optional_eq_some_iff,
    MemoryType.decodes.reads.list.optional_eq_some_iff,
    TableType.decodes.reads.list.optional_eq_some_iff]

/-! ## All presentations -/

def Form.noisyNop (noise : Json) : Json :=
  .object [(some "op", .ofString "nop"), (some "x", noise)]

theorem Form.presentedBy_noisyNop (noise : Json) :
    PresentedBy Operator.nop.fields (noisyNop noise) := by
  refine ⟨by simp, ?_⟩
  intro f hf
  obtain rfl := List.mem_singleton.1 hf
  rfl

/-- An unknown field of an operator may not hold a number out of range, a string without characters
or a value that is nested too deeply. Nor may any key be without characters. -/
theorem unknown_field_rejected :
    (∀ noise ∈ [.number (.decimal false 1 309), .string none,
        Nat.repeat (fun j => .array [j]) 127 .null],
      PresentedBy Operator.nop.fields (noisyNop noise) ∧
        Operator.ofJson? 0 (noisyNop noise) = none) ∧
    (∀ f ∈ TableType.fields {}, f.GivenBy (valuesOf f.name [(none, .null)])) ∧
    TableType.ofJson? (.object [(none, .null)]) = none := by
  refine ⟨?_, ?_, rfl⟩
  · intro noise hnoise
    refine ⟨presentedBy_noisyNop noise, ?_⟩
    simp only [List.mem_cons, List.not_mem_nil, or_false] at hnoise
    rcases hnoise with rfl | rfl | rfl <;> decide +kernel
  · intro f hf
    simp only [TableType.fields, List.mem_cons, List.not_mem_nil, or_false] at hf
    rcases hf with rfl | rfl <;> rfl

/-- Every record is read from exactly its presentations: an object with its fields in any order,
unknown fields among them and defaults left out, or an array of its fields with defaults left out at
the end. An operator, which stands inside the given number of containers, must also be readable as
a whole. What repeats a known field, lacks a required one or has an item too many is rejected. -/
theorem presentations_decode (outside : Nat) :
    Decodes Module.ofJson? Module.fieldNames [] Module.fields ∧
    Decodes FuncType.ofJson? FuncType.fieldNames [] FuncType.fields ∧
    Decodes (FunctionDef.ofJson? outside) FunctionDef.fieldNames ["ty", "body"]
      (FunctionDef.fields outside) ∧
    Decodes GlobalType.ofJson? GlobalType.fieldNames ["type"] GlobalType.fields ∧
    Decodes MemoryType.ofJson? MemoryType.fieldNames [] MemoryType.fields ∧
    Decodes TableType.ofJson? TableType.fieldNames [] TableType.fields ∧
    Decodes MemArg.ofJson? MemArg.fieldNames ["align"] MemArg.fields ∧
    Decodes BranchTable.ofJson? BranchTable.fieldNames ["default"] BranchTable.fields ∧
    (∀ op j, Operator.ofJson? outside j = some op ↔
      j.readable (maxNesting - outside) ∧ PresentedBy op.fields j) ∧
    ∀ j, (∀ m : Mnemonic, m.NamedBy j →
        Malformed ("op" :: m.fieldNames) ("op" :: m.fieldNames) j) →
      Operator.ofJson? outside j = none :=
  ⟨Module.decodes, FuncType.decodes, FunctionDef.decodes outside, GlobalType.decodes,
    MemoryType.decodes, TableType.decodes, MemArg.decodes, BranchTable.decodes,
    Operator.reads outside, fun _ => Operator.rejects outside⟩

example : FunctionDef.ofJson? 0 (.object [
      (some "body", .array [
        .object [(some "memarg", .object [(some "memory", .ofNat 1), (some "align", .ofNat 2)]),
          (some "op", .ofString "i32.load")],
        .array [.ofString "br_if", .ofNat 0]]),
      (some "note", .null), (some "ty", .ofNat 7), (some "note", .bool true)]) =
    some ⟨7, [], [.load (.whole .i32) ⟨2, 0, 1⟩, .brIf 0]⟩ := by
  decide +kernel

end WasmTyping
