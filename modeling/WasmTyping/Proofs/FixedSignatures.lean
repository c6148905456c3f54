import WasmTyping.Operator.Basic

/-!
# Rules for operators with a fixed signature

Numeric operators and accesses to memory take and leave the same types everywhere. The rules say
which, class by class, and how many bytes an access moves. They are written without the tables that
the checker reads, and the tables are shown to agree with them.
-/

namespace WasmTyping

inductive IntType.Typed : IntType → ValueType → Prop where
  | i32 : Typed .i32 .i32
  | i64 : Typed .i64 .i64

inductive FloatType.Typed : FloatType → ValueType → Prop where
  | f32 : Typed .f32 .f32
  | f64 : Typed .f64 .f64

inductive ValueType.Spans : ValueType → Nat → Prop where
  | i32 : Spans .i32 4
  | i64 : Spans .i64 8
  | f32 : Spans .f32 4
  | f64 : Spans .f64 8

inductive IntPart.Typed : IntPart → ValueType → Nat → Prop where
  | i32Low8 : Typed .i32Low8 .i32 1
  | i32Low16 : Typed .i32Low16 .i32 2
  | i64Low8 : Typed .i64Low8 .i64 1
  | i64Low16 : Typed .i64Low16 .i64 2
  | i64Low32 : Typed .i64Low32 .i64 4

inductive NumericOp.Typed : NumericOp → List ValueType → ValueType → Prop where
  | eqz {i : IntType} {t : ValueType} (h : i.Typed t) : Typed (.eqz i) [t] .i32
  | intCompare {i : IntType} {t : ValueType} (h : i.Typed t) (relation : IntRelation) :
      Typed (.intCompare i relation) [t, t] .i32
  | floatCompare {f : FloatType} {t : ValueType} (h : f.Typed t) (relation : FloatRelation) :
      Typed (.floatCompare f relation) [t, t] .i32
  | intUnary {i : IntType} {t : ValueType} (h : i.Typed t) (op : IntUnary) :
      Typed (.intUnary i op) [t] t
  | intBinary {i : IntType} {t : ValueType} (h : i.Typed t) (op : IntBinary) :
      Typed (.intBinary i op) [t, t] t
  | floatUnary {f : FloatType} {t : ValueType} (h : f.Typed t) (op : FloatUnary) :
      Typed (.floatUnary f op) [t] t
  | floatBinary {f : FloatType} {t : ValueType} (h : f.Typed t) (op : FloatBinary) :
      Typed (.floatBinary f op) [t, t] t
  | wrap : Typed .wrap [.i64] .i32
  | extend (sign : Signedness) : Typed (.extend sign) [.i32] .i64
  | trunc {i : IntType} {f : FloatType} {t u : ValueType} (hi : i.Typed t) (hf : f.Typed u)
      (sign : Signedness) : Typed (.trunc i f sign) [u] t
  | convert {i : IntType} {f : FloatType} {t u : ValueType} (hi : i.Typed t) (hf : f.Typed u)
      (sign : Signedness) : Typed (.convert f i sign) [t] u
  | demote : Typed .demote [.f64] .f32
  | promote : Typed .promote [.f32] .f64
  | f32ToBits : Typed (.toBits .f32) [.f32] .i32
  | f64ToBits : Typed (.toBits .f64) [.f64] .i64
  | f32OfBits : Typed (.ofBits .f32) [.i32] .f32
  | f64OfBits : Typed (.ofBits .f64) [.i64] .f64
  | signExtend {p : IntPart} {t : ValueType} {bytes : Nat} (h : p.Typed t bytes) :
      Typed (.signExtend p) [t] t
  | truncSat {i : IntType} {f : FloatType} {t u : ValueType} (hi : i.Typed t) (hf : f.Typed u)
      (sign : Signedness) : Typed (.truncSat i f sign) [u] t

inductive Load.Typed : Load → ValueType → Nat → Prop where
  | whole {t : ValueType} {bytes : Nat} (h : t.Spans bytes) : Typed (.whole t) t bytes
  | part {p : IntPart} {t : ValueType} {bytes : Nat} (h : p.Typed t bytes) (sign : Signedness) :
      Typed (.part p sign) t bytes

inductive Store.Typed : Store → ValueType → Nat → Prop where
  | whole {t : ValueType} {bytes : Nat} (h : t.Spans bytes) : Typed (.whole t) t bytes
  | part {p : IntPart} {t : ValueType} {bytes : Nat} (h : p.Typed t bytes) :
      Typed (.part p) t bytes

inductive Operator.Requires : Operator → Feature → Prop where
  | signExtend (p : IntPart) : Requires (.numeric (.signExtend p)) .signExtension
  | truncSat (i : IntType) (f : FloatType) (sign : Signedness) :
      Requires (.numeric (.truncSat i f sign)) .saturatingFloatToInt

section Tables

variable {t : ValueType} {bytes : Nat}

theorem IntType.typed_iff {i : IntType} : i.Typed t ↔ t = i.valueType := by
  constructor
  · intro h
    cases h <;> rfl
  · intro h
    subst h
    cases i <;> constructor

theorem FloatType.typed_iff {f : FloatType} : f.Typed t ↔ t = f.valueType := by
  constructor
  · intro h
    cases h <;> rfl
  · intro h
    subst h
    cases f <;> constructor

theorem ValueType.spans_iff : t.Spans bytes ↔ bytes = Nat.pow 2 t.alignment.toNat := by
  constructor
  · intro h
    cases h <;> rfl
  · intro h
    subst h
    cases t <;> constructor

theorem IntPart.typed_iff {p : IntPart} :
    p.Typed t bytes ↔ t = p.type.valueType ∧ bytes = Nat.pow 2 p.alignment.toNat := by
  constructor
  · intro h
    cases h <;> exact ⟨rfl, rfl⟩
  · intro h
    obtain ⟨rfl, rfl⟩ := h
    cases p <;> constructor

theorem Load.typed_iff {access : Load} :
    access.Typed t bytes ↔ t = access.type ∧ bytes = Nat.pow 2 access.alignment.toNat := by
  constructor
  · intro h
    cases h with
    | whole h => exact ⟨rfl, ValueType.spans_iff.1 h⟩
    | part h => exact IntPart.typed_iff.1 h
  · intro h
    cases access with
    | whole type =>
      obtain ⟨rfl, hbytes⟩ := h
      exact .whole (ValueType.spans_iff.2 hbytes)
    | part p sign => exact .part (IntPart.typed_iff.2 h) sign

theorem Store.typed_iff {access : Store} :
    access.Typed t bytes ↔ t = access.type ∧ bytes = Nat.pow 2 access.alignment.toNat := by
  constructor
  · intro h
    cases h with
    | whole h => exact ⟨rfl, ValueType.spans_iff.1 h⟩
    | part h => exact IntPart.typed_iff.1 h
  · intro h
    cases access with
    | whole type =>
      obtain ⟨rfl, hbytes⟩ := h
      exact .whole (ValueType.spans_iff.2 hbytes)
    | part p => exact .part (IntPart.typed_iff.2 h)

theorem NumericOp.signature_of_typed {op : NumericOp} {a : List ValueType} (h : op.Typed a t) :
    op.signature = ⟨a, [t]⟩ := by
  cases h with
  | eqz h | intCompare h | intUnary h | intBinary h =>
    obtain rfl := IntType.typed_iff.1 h
    rfl
  | floatCompare h | floatUnary h | floatBinary h =>
    obtain rfl := FloatType.typed_iff.1 h
    rfl
  | trunc hi hf | convert hi hf | truncSat hi hf =>
    obtain rfl := IntType.typed_iff.1 hi
    obtain rfl := FloatType.typed_iff.1 hf
    rfl
  | signExtend h =>
    obtain ⟨rfl, -⟩ := IntPart.typed_iff.1 h
    rfl
  | _ => rfl

theorem NumericOp.exists_typed (op : NumericOp) : ∃ a t, op.Typed a t := by
  have hint (i : IntType) : i.Typed i.valueType := IntType.typed_iff.2 rfl
  have hfloat (f : FloatType) : f.Typed f.valueType := FloatType.typed_iff.2 rfl
  cases op with
  | eqz i => exact ⟨_, _, .eqz (hint i)⟩
  | intCompare i relation => exact ⟨_, _, .intCompare (hint i) relation⟩
  | floatCompare f relation => exact ⟨_, _, .floatCompare (hfloat f) relation⟩
  | intUnary i op => exact ⟨_, _, .intUnary (hint i) op⟩
  | intBinary i op => exact ⟨_, _, .intBinary (hint i) op⟩
  | floatUnary f op => exact ⟨_, _, .floatUnary (hfloat f) op⟩
  | floatBinary f op => exact ⟨_, _, .floatBinary (hfloat f) op⟩
  | wrap => exact ⟨_, _, .wrap⟩
  | extend sign => exact ⟨_, _, .extend sign⟩
  | trunc i f sign => exact ⟨_, _, .trunc (hint i) (hfloat f) sign⟩
  | convert f i sign => exact ⟨_, _, .convert (hint i) (hfloat f) sign⟩
  | demote => exact ⟨_, _, .demote⟩
  | promote => exact ⟨_, _, .promote⟩
  | toBits f => cases f <;> exact ⟨_, _, by constructor⟩
  | ofBits f => cases f <;> exact ⟨_, _, by constructor⟩
  | signExtend p => exact ⟨_, _, .signExtend (IntPart.typed_iff.2 ⟨rfl, rfl⟩)⟩
  | truncSat i f sign => exact ⟨_, _, .truncSat (hint i) (hfloat f) sign⟩

theorem NumericOp.typed_iff {op : NumericOp} {a : List ValueType} :
    op.Typed a t ↔ op.signature = ⟨a, [t]⟩ := by
  constructor
  · exact signature_of_typed
  · intro h
    obtain ⟨b, u, hop⟩ := op.exists_typed
    obtain ⟨rfl, hresults⟩ := FuncType.mk.inj ((signature_of_typed hop).symm.trans h)
    obtain rfl := List.singleton_inj.1 hresults
    exact hop

theorem Operator.requires_iff {op : Operator} {f : Feature} :
    op.Requires f ↔ op.feature? = some f := by
  constructor
  · intro h
    cases h <;> rfl
  · intro h
    cases op with
    | numeric op =>
      cases op with
      | signExtend p =>
        obtain rfl := Option.some.inj h
        exact .signExtend p
      | truncSat i g sign =>
        obtain rfl := Option.some.inj h
        exact .truncSat i g sign
      | _ => cases h
    | _ => cases h

end Tables

end WasmTyping
