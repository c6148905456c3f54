import WasmTyping.Feature
import WasmTyping.ValueType

/-!
# Numeric operators

Comparisons, arithmetic and conversions. None has an immediate, each has a fixed signature, and
each is named by the type it yields and what it does.
-/

namespace WasmTyping

inductive IntType where
  | i32
  | i64
deriving DecidableEq

def IntType.all : List IntType := [.i32, .i64]

def IntType.valueType : IntType → ValueType
  | .i32 => .i32
  | .i64 => .i64

def IntType.name (t : IntType) : String := t.valueType.name

inductive FloatType where
  | f32
  | f64
deriving DecidableEq

def FloatType.all : List FloatType := [.f32, .f64]

def FloatType.valueType : FloatType → ValueType
  | .f32 => .f32
  | .f64 => .f64

def FloatType.name (t : FloatType) : String := t.valueType.name

def FloatType.sameWidth : FloatType → IntType
  | .f32 => .i32
  | .f64 => .i64

inductive Signedness where
  | signed
  | unsigned
deriving DecidableEq

def Signedness.all : List Signedness := [.signed, .unsigned]

def Signedness.suffix : Signedness → String
  | .signed => "_s"
  | .unsigned => "_u"

/-- The low bits of an integer that a narrow access or a sign extension works on. -/
inductive IntPart where
  | i32Low8
  | i32Low16
  | i64Low8
  | i64Low16
  | i64Low32
deriving DecidableEq

namespace IntPart

def all : List IntPart := [.i32Low8, .i32Low16, .i64Low8, .i64Low16, .i64Low32]

def type : IntPart → IntType
  | .i32Low8 | .i32Low16 => .i32
  | .i64Low8 | .i64Low16 | .i64Low32 => .i64

def bits : IntPart → String
  | .i32Low8 | .i64Low8 => "8"
  | .i32Low16 | .i64Low16 => "16"
  | .i64Low32 => "32"

def alignment : IntPart → UInt8
  | .i32Low8 | .i64Low8 => 0
  | .i32Low16 | .i64Low16 => 1
  | .i64Low32 => 2

end IntPart

inductive IntRelation where
  | eq
  | ne
  | lt (sign : Signedness)
  | gt (sign : Signedness)
  | le (sign : Signedness)
  | ge (sign : Signedness)
deriving DecidableEq

namespace IntRelation

def all : List IntRelation :=
  [.eq, .ne] ++ Signedness.all.flatMap fun s => [.lt s, .gt s, .le s, .ge s]

def name : IntRelation → String
  | .eq => "eq"
  | .ne => "ne"
  | .lt s => "lt" ++ s.suffix
  | .gt s => "gt" ++ s.suffix
  | .le s => "le" ++ s.suffix
  | .ge s => "ge" ++ s.suffix

end IntRelation

inductive FloatRelation where
  | eq
  | ne
  | lt
  | gt
  | le
  | ge
deriving DecidableEq

namespace FloatRelation

def all : List FloatRelation := [.eq, .ne, .lt, .gt, .le, .ge]

def name : FloatRelation → String
  | .eq => "eq"
  | .ne => "ne"
  | .lt => "lt"
  | .gt => "gt"
  | .le => "le"
  | .ge => "ge"

end FloatRelation

inductive IntUnary where
  | clz
  | ctz
  | popcnt
deriving DecidableEq

namespace IntUnary

def all : List IntUnary := [.clz, .ctz, .popcnt]

def name : IntUnary → String
  | .clz => "clz"
  | .ctz => "ctz"
  | .popcnt => "popcnt"

end IntUnary

inductive IntBinary where
  | add
  | sub
  | mul
  | div (sign : Signedness)
  | rem (sign : Signedness)
  | and
  | or
  | xor
  | shl
  | shr (sign : Signedness)
  | rotl
  | rotr
deriving DecidableEq

namespace IntBinary

def all : List IntBinary :=
  [add, sub, mul, and, or, xor, shl, rotl, rotr] ++
    Signedness.all.flatMap fun s => [div s, rem s, shr s]

def name : IntBinary → String
  | .add => "add"
  | .sub => "sub"
  | .mul => "mul"
  | .div s => "div" ++ s.suffix
  | .rem s => "rem" ++ s.suffix
  | .and => "and"
  | .or => "or"
  | .xor => "xor"
  | .shl => "shl"
  | .shr s => "shr" ++ s.suffix
  | .rotl => "rotl"
  | .rotr => "rotr"

end IntBinary

inductive FloatUnary where
  | abs
  | neg
  | ceil
  | floor
  | trunc
  | nearest
  | sqrt
deriving DecidableEq

namespace FloatUnary

def all : List FloatUnary := [.abs, .neg, .ceil, .floor, .trunc, .nearest, .sqrt]

def name : FloatUnary → String
  | .abs => "abs"
  | .neg => "neg"
  | .ceil => "ceil"
  | .floor => "floor"
  | .trunc => "trunc"
  | .nearest => "nearest"
  | .sqrt => "sqrt"

end FloatUnary

inductive FloatBinary where
  | add
  | sub
  | mul
  | div
  | min
  | max
  | copysign
deriving DecidableEq

namespace FloatBinary

def all : List FloatBinary := [.add, .sub, .mul, .div, .min, .max, .copysign]

def name : FloatBinary → String
  | .add => "add"
  | .sub => "sub"
  | .mul => "mul"
  | .div => "div"
  | .min => "min"
  | .max => "max"
  | .copysign => "copysign"

end FloatBinary

inductive NumericOp where
  | eqz (type : IntType)
  | intCompare (type : IntType) (relation : IntRelation)
  | floatCompare (type : FloatType) (relation : FloatRelation)
  | intUnary (type : IntType) (op : IntUnary)
  | intBinary (type : IntType) (op : IntBinary)
  | floatUnary (type : FloatType) (op : FloatUnary)
  | floatBinary (type : FloatType) (op : FloatBinary)
  | wrap
  | extend (sign : Signedness)
  | trunc (target : IntType) (source : FloatType) (sign : Signedness)
  | convert (target : FloatType) (source : IntType) (sign : Signedness)
  | demote
  | promote
  | toBits (source : FloatType)
  | ofBits (target : FloatType)
  | signExtend (part : IntPart)
  | truncSat (target : IntType) (source : FloatType) (sign : Signedness)
deriving DecidableEq

namespace NumericOp

def all : List NumericOp :=
  [wrap, demote, promote] ++
    (IntType.all.flatMap fun t =>
      eqz t :: (IntRelation.all.map (intCompare t) ++ IntUnary.all.map (intUnary t) ++
        IntBinary.all.map (intBinary t))) ++
    (FloatType.all.flatMap fun t =>
      toBits t :: ofBits t :: (FloatRelation.all.map (floatCompare t) ++
        FloatUnary.all.map (floatUnary t) ++ FloatBinary.all.map (floatBinary t))) ++
    Signedness.all.map extend ++
    (IntType.all.flatMap fun i => FloatType.all.flatMap fun f => Signedness.all.flatMap fun s =>
      [trunc i f s, convert f i s, truncSat i f s]) ++
    IntPart.all.map signExtend

def name : NumericOp → String
  | .eqz t => t.name ++ ".eqz"
  | .intCompare t r => t.name ++ "." ++ r.name
  | .floatCompare t r => t.name ++ "." ++ r.name
  | .intUnary t o => t.name ++ "." ++ o.name
  | .intBinary t o => t.name ++ "." ++ o.name
  | .floatUnary t o => t.name ++ "." ++ o.name
  | .floatBinary t o => t.name ++ "." ++ o.name
  | .wrap => "i32.wrap_i64"
  | .extend s => "i64.extend_i32" ++ s.suffix
  | .trunc i f s => i.name ++ ".trunc_" ++ f.name ++ s.suffix
  | .convert f i s => f.name ++ ".convert_" ++ i.name ++ s.suffix
  | .demote => "f32.demote_f64"
  | .promote => "f64.promote_f32"
  | .toBits f => f.sameWidth.name ++ ".reinterpret_" ++ f.name
  | .ofBits f => f.name ++ ".reinterpret_" ++ f.sameWidth.name
  | .signExtend p => p.type.name ++ ".extend" ++ p.bits ++ "_s"
  | .truncSat i f s => i.name ++ ".trunc_sat_" ++ f.name ++ s.suffix

def signature : NumericOp → FuncType
  | .eqz t => ⟨[t.valueType], [.i32]⟩
  | .intCompare t _ => ⟨[t.valueType, t.valueType], [.i32]⟩
  | .floatCompare t _ => ⟨[t.valueType, t.valueType], [.i32]⟩
  | .intUnary t _ => ⟨[t.valueType], [t.valueType]⟩
  | .intBinary t _ => ⟨[t.valueType, t.valueType], [t.valueType]⟩
  | .floatUnary t _ => ⟨[t.valueType], [t.valueType]⟩
  | .floatBinary t _ => ⟨[t.valueType, t.valueType], [t.valueType]⟩
  | .wrap => ⟨[.i64], [.i32]⟩
  | .extend _ => ⟨[.i32], [.i64]⟩
  | .trunc i f _ => ⟨[f.valueType], [i.valueType]⟩
  | .convert f i _ => ⟨[i.valueType], [f.valueType]⟩
  | .demote => ⟨[.f64], [.f32]⟩
  | .promote => ⟨[.f32], [.f64]⟩
  | .toBits f => ⟨[f.valueType], [f.sameWidth.valueType]⟩
  | .ofBits f => ⟨[f.sameWidth.valueType], [f.valueType]⟩
  | .signExtend p => ⟨[p.type.valueType], [p.type.valueType]⟩
  | .truncSat i f _ => ⟨[f.valueType], [i.valueType]⟩

/-- The proposal that an operator belongs to, if it is not part of the core language. -/
def feature? : NumericOp → Option Feature
  | .signExtend _ => some .signExtension
  | .truncSat .. => some .saturatingFloatToInt
  | _ => none

end NumericOp

end WasmTyping
