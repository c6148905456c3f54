import WasmTyping.Proofs.JsonText
import WasmTyping.Proofs.Presentations

/-!
# Round trips

What is written for a value is one of its presentations, and its text is read back as it is. The two
halves meet in `Renders`, so every value is restored from its text.
-/

namespace WasmTyping

open Form

structure Form.Renders {α : Type} (write : α → Json) (present : α → Json → Prop) : Prop where
  plain : ∀ x, (write x).Plain
  presents : ∀ x, present x (write x)

/-- Every value is restored from its text. So if a text is read, and the result written and read
again, the same comes out as the first time. -/
structure Form.Restores {α : Type} (write : α → Json) (read? : Json → Option α) : Prop where
  value : ∀ x, (Json.parse? (write x).text).bind read? = some x
  again : ∀ text, (((Json.parse? text).bind read?).bind fun x =>
    (Json.parse? (write x).text).bind read?) = (Json.parse? text).bind read?

namespace Form.Renders

variable {α : Type} {write : α → Json} {present : α → Json → Prop}

theorem restores (h : Renders write present) {read? : Json → Option α} (hread : Reads read? present) :
    Restores write read? := by
  have hvalue : ∀ x, (Json.parse? (write x).text).bind read? = some x := by
    intro x
    rw [(h.plain x).parse?_text, Option.bind_some]
    exact (hread x _).2 (h.presents x)
  refine ⟨hvalue, fun text => ?_⟩
  simp [hvalue]

theorem verbatim (h : ∀ x, (write x).Plain) : Renders write (Verbatim write) :=
  ⟨h, fun _ => rfl⟩

theorem list (h : Renders write present) : Renders (ofList write) (ListPresentedBy present) := by
  constructor
  · intro xs
    refine .array ?_
    intro item hitem
    obtain ⟨x, -, rfl⟩ := List.mem_map.1 hitem
    exact h.plain x
  · intro xs
    refine ⟨xs.map write, rfl, ?_⟩
    induction xs with
    | nil => exact .nil
    | cons x xs ih => exact .cons (h.presents x) ih

theorem nullable (h : Renders write present) :
    Renders (ofNullable write) (NullablePresentedBy present) := by
  constructor
  · intro x
    cases x with
    | none => exact .null
    | some x => exact h.plain x
  · intro x
    cases x with
    | none => rfl
    | some x => exact h.presents x

end Form.Renders

/-! ## Records -/

namespace Form

structure Field.RenderedBy (f : Field) (entry : String × Json) : Prop where
  key : entry.1 = f.name
  plain : entry.2.Plain
  presents : f.PresentedBy entry.2

section

variable {α : Type} {write : α → Json} {present : α → Json → Prop}

theorem Renders.required (h : Renders write present) (name : String) (x : α) :
    (Field.required name present x).RenderedBy (name, write x) :=
  ⟨rfl, h.plain x, h.presents x⟩

theorem Renders.optional (h : Renders write present) (name : String) (fallback x : α) :
    (Field.optional name fallback present x).RenderedBy (name, write x) :=
  ⟨rfl, h.plain x, h.presents x⟩

end

section

variable {fields : List Field} {written : List (String × Json)}

theorem valuesOf_of_rendered (h : List.Forall₂ Field.RenderedBy fields written) {name : String}
    (hname : name ∉ fields.map Field.name) :
    valuesOf name (written.map fun (k, v) => (some k, v)) = [] := by
  induction h with
  | nil => rfl
  | @cons f entry fields written hentry _ ih =>
    rw [List.map_cons, List.mem_cons, not_or] at hname
    have hkey : entry.1 ≠ name := by
      rw [hentry.key]
      exact Ne.symm hname.1
    simp [valuesOf_cons, hkey, ih hname.2]

theorem givenBy_of_rendered (h : List.Forall₂ Field.RenderedBy fields written)
    (hnames : (fields.map Field.name).Nodup) :
    ∀ f ∈ fields, f.GivenBy (valuesOf f.name (written.map fun (k, v) => (some k, v))) := by
  induction h with
  | nil => simp
  | @cons f entry fields written hentry hrest ih =>
    obtain ⟨habsent, hnames⟩ := List.nodup_cons.1 hnames
    rw [List.forall_mem_cons]
    constructor
    · simp [valuesOf_cons, hentry.key, valuesOf_of_rendered hrest habsent, Field.GivenBy,
        hentry.presents]
    · intro g hg
      have hkey : entry.1 ≠ g.name := by
        rw [hentry.key]
        intro heq
        exact habsent (heq ▸ List.mem_map_of_mem hg)
      simpa [valuesOf_cons, hkey] using ih hnames g hg

theorem plain_ofFields (h : ∀ entry ∈ written, entry.2.Plain) : (Json.ofFields written).Plain :=
  .object (List.forall_mem_map.2 fun entry _ => ⟨entry.1, rfl⟩) (List.forall_mem_map.2 h)

end

theorem Renders.record {α : Type} {write : α → List (String × Json)} {fields : α → List Field}
    (hnames : ∀ x, ((fields x).map Field.name).Nodup)
    (h : ∀ x, List.Forall₂ Field.RenderedBy (fields x) (write x)) :
    Renders (fun x => .ofFields (write x)) fun x => PresentedBy (fields x) := by
  have hplain : ∀ {fields written}, List.Forall₂ Field.RenderedBy fields written →
      ∀ entry ∈ written, entry.2.Plain := by
    intro fields written h
    induction h with
    | nil => simp
    | cons hentry _ ih => exact List.forall_mem_cons.2 ⟨hentry.plain, ih⟩
  refine ⟨fun x => plain_ofFields (hplain (h x)), fun x => ⟨?_, ?_⟩⟩
  · exact List.forall_mem_map.2 fun _ _ => rfl
  · exact givenBy_of_rendered (h x) (hnames x)

theorem plain_u8 (n : UInt8) : (Json.ofNat n.toNat).Plain :=
  .number false (Nat.lt_trans n.toNat_lt_size (by decide))

theorem plain_u32 (n : UInt32) : (Json.ofNat n.toNat).Plain :=
  .number false (Nat.lt_trans n.toNat_lt_size (by decide))

theorem plain_u64 (n : UInt64) : (Json.ofNat n.toNat).Plain :=
  .number false n.toNat_lt_size

theorem plain_i32 (n : Int32) : (Json.ofInt n.toInt).Plain := by
  have hlow := n.minValue_le_toInt
  have hhigh := n.toInt_le
  have hmin : Int32.minValue.toInt = -2147483648 := by decide
  have hmax : Int32.maxValue.toInt = 2147483647 := by decide
  refine .number _ ?_
  rw [UInt64.size]
  omega

theorem plain_i64 (n : Int64) : (Json.ofInt n.toInt).Plain := by
  have hlow := n.minValue_le_toInt
  have hhigh := n.toInt_le
  have hmin : Int64.minValue.toInt = -9223372036854775808 := by decide
  have hmax : Int64.maxValue.toInt = 9223372036854775807 := by decide
  refine .number _ ?_
  rw [UInt64.size]
  omega

end Form

/-! ## Types -/

theorem ValueType.renders (place : Place) : Renders toJson (PresentedBy place) :=
  ⟨fun t => .string t.name, fun _ => .name⟩

theorem BlockType.renders (place : Place) : Renders toJson (PresentedBy place) := by
  constructor
  · intro t
    cases t with
    | empty => exact .string "empty"
    | result t => exact plain_ofFields (by simpa using (ValueType.renders place).plain t)
    | func i => exact plain_ofFields (by simpa using plain_u32 i)
  · intro t
    cases t with
    | empty => exact .empty
    | result t => exact .result .name
    | func i => exact .func i

theorem FuncType.renders : Renders toJson fun t => Form.PresentedBy t.fields := by
  have htypes := (ValueType.renders .declaration).list
  refine .record (fun _ => (by decide : fieldNames.Nodup)) fun t => ?_
  exact .cons (htypes.optional ..) (.cons (htypes.optional ..) .nil)

theorem GlobalType.renders : Renders toJson fun t => Form.PresentedBy t.fields := by
  refine .record (fun _ => (by decide : fieldNames.Nodup)) fun t => ?_
  exact .cons ((ValueType.renders .declaration).required ..)
    (.cons ((Renders.verbatim Json.Plain.bool).optional ..) .nil)

theorem MemoryType.renders : Renders toJson fun t => Form.PresentedBy t.fields := by
  have hsize := Renders.verbatim plain_u64
  refine .record (fun _ => (by decide : fieldNames.Nodup)) fun t => ?_
  exact .cons ((Renders.verbatim Json.Plain.bool).optional ..)
    (.cons (hsize.optional ..) (.cons (hsize.nullable.optional ..) .nil))

theorem TableType.renders : Renders toJson fun t => Form.PresentedBy t.fields := by
  have hsize := Renders.verbatim plain_u32
  refine .record (fun _ => (by decide : fieldNames.Nodup)) fun t => ?_
  exact .cons (hsize.optional ..) (.cons (hsize.nullable.optional ..) .nil)

theorem MemArg.renders : Renders toJson fun a => Form.PresentedBy a.fields := by
  refine .record (fun _ => (by decide : fieldNames.Nodup)) fun a => ?_
  exact .cons ((Renders.verbatim plain_u8).required ..)
    (.cons ((Renders.verbatim plain_u64).optional ..)
      (.cons ((Renders.verbatim plain_u32).optional ..) .nil))

theorem BranchTable.renders : Renders toJson fun t => Form.PresentedBy t.fields := by
  have hdepth := Renders.verbatim plain_u32
  refine .record (fun _ => (by decide : fieldNames.Nodup)) fun t => ?_
  exact .cons (hdepth.list.optional ..) (.cons (hdepth.required ..) .nil)

/-! ## Operators -/

namespace Operator

theorem immediates_rendered (op : Operator) :
    List.Forall₂ Field.RenderedBy op.immediateFields op.immediates := by
  have hindex := Renders.verbatim plain_u32
  cases op with
  | enter c type => exact .cons ((BlockType.renders .operator).required ..) .nil
  | brTable table => exact .cons (BranchTable.renders.required ..) .nil
  | callIndirect type table => exact .cons (hindex.required ..) (.cons (hindex.required ..) .nil)
  | load access arg | store access arg => exact .cons (MemArg.renders.required ..) .nil
  | i32Const n => exact .cons ((Renders.verbatim plain_i32).required ..) .nil
  | i64Const n => exact .cons ((Renders.verbatim plain_i64).required ..) .nil
  | f64Const bits => exact .cons ((Renders.verbatim plain_u64).required ..) .nil
  | br | brIf | call | localGet | localSet | localTee | globalGet | globalSet | memorySize
  | memoryGrow | f32Const => exact .cons (hindex.required ..) .nil
  | unreachable | nop | elseArm | endBlock | ret | drop | select | numeric => exact .nil

theorem readable_ofNat (levels n : Nat) : (Json.ofNat n).readable levels = true := by
  cases levels <;> rfl

theorem readable_toJson (op : Operator) (levels : Nat) : op.toJson.readable (levels + 3) := by
  have htargets : ∀ targets : List UInt32,
      Json.readableItems levels (targets.map fun d => .ofNat d.toNat) = true := by
    intro targets
    induction targets with
    | nil => rfl
    | cons d targets ih => simp [Json.readableItems, readable_ofNat, ih]
  cases op with
  | enter c type => cases type <;> rfl
  | brTable table =>
    simp [toJson, immediates, BranchTable.toJson, ofList, Json.ofFields, Json.ofString, Json.readable,
      Json.readableFields, readable_ofNat, htargets]
  | _ => rfl

theorem renders {outside : Nat} (h : outside + 3 ≤ maxNesting) :
    Renders toJson (PresentedBy outside) := by
  have hname := Renders.verbatim fun m : Mnemonic => Json.Plain.string m.name
  have hrecord : Renders toJson fun op => Form.PresentedBy op.fields := by
    refine .record (fun op => ?_) fun op => .cons (hname.required ..) op.immediates_rendered
    rw [fields_names]
    exact op.mnemonic.nodup_fieldNames
  refine ⟨hrecord.plain, fun op => ⟨?_, hrecord.presents op⟩⟩
  obtain ⟨levels, hlevels⟩ := Nat.exists_eq_add_of_le h
  rw [show maxNesting - outside = levels + 3 by omega]
  exact op.readable_toJson levels

end Operator

/-! ## Functions and modules -/

theorem Form.renders_group : Renders ofGroup GroupPresentedBy := by
  constructor
  · rintro ⟨count, type⟩
    refine .array ?_
    simpa using ⟨plain_u32 count, (ValueType.renders .declaration).plain type⟩
  · rintro ⟨count, type⟩
    exact ⟨type.toJson, rfl, .name⟩

theorem FunctionDef.renders {outside : Nat} (h : outside + 5 ≤ maxNesting) :
    Renders toJson fun f => Form.PresentedBy (f.fields outside) := by
  have hbody : Renders Operator.toJson (Operator.PresentedBy (outside + 2)) :=
    Operator.renders (by omega)
  refine .record (fun _ => (by decide : fieldNames.Nodup)) fun f => ?_
  exact .cons ((Renders.verbatim plain_u32).required ..)
    (.cons (renders_group.list.optional ..) (.cons (hbody.list.required ..) .nil))

theorem Module.renders : Renders toJson fun m => Form.PresentedBy m.fields := by
  have hfunctions : Renders FunctionDef.toJson fun f => Form.PresentedBy (f.fields 2) :=
    FunctionDef.renders (by decide)
  refine .record (fun _ => (by decide : fieldNames.Nodup)) fun m => ?_
  exact .cons (FuncType.renders.list.optional ..)
    (.cons ((Renders.verbatim plain_u32).list.optional ..)
      (.cons (hfunctions.list.optional ..)
        (.cons (GlobalType.renders.list.optional ..)
          (.cons (MemoryType.renders.list.optional ..)
            (.cons (TableType.renders.list.optional ..) .nil)))))

/-- Every module and every part of one is restored from the text that is written for it. -/
theorem restored_from_text :
    (∀ m : Module, Module.parse? m.text = some m) ∧
    (∀ text, ((Module.parse? text).bind fun m => Module.parse? m.text) = Module.parse? text) ∧
    Restores FunctionDef.toJson (FunctionDef.ofJson? 0) ∧
    Restores FuncType.toJson FuncType.ofJson? ∧
    (∀ place, Restores ValueType.toJson (ValueType.ofJson? place)) ∧
    (∀ place, Restores BlockType.toJson (BlockType.ofJson? place)) ∧
    Restores GlobalType.toJson GlobalType.ofJson? ∧
    Restores MemoryType.toJson MemoryType.ofJson? ∧
    Restores TableType.toJson TableType.ofJson? ∧
    Restores MemArg.toJson MemArg.ofJson? ∧
    Restores BranchTable.toJson BranchTable.ofJson? ∧
    Restores Operator.toJson (Operator.ofJson? 0) :=
  have hmodule := Module.renders.restores Module.decodes.reads
  ⟨hmodule.value, hmodule.again,
    (FunctionDef.renders (by decide)).restores (FunctionDef.decodes 0).reads,
    FuncType.renders.restores FuncType.decodes.reads,
    fun place => (ValueType.renders place).restores (ValueType.reads place),
    fun place => (BlockType.renders place).restores (BlockType.reads place),
    GlobalType.renders.restores GlobalType.decodes.reads,
    MemoryType.renders.restores MemoryType.decodes.reads,
    TableType.renders.restores TableType.decodes.reads,
    MemArg.renders.restores MemArg.decodes.reads,
    BranchTable.renders.restores BranchTable.decodes.reads,
    (Operator.renders (by decide)).restores (Operator.reads 0)⟩

end WasmTyping
