import WasmTyping.Decimal.Float
import WasmTyping.Operator.Basic

/-!
# Operators as text

An operator is shown as its name followed by its immediates. Immediates that say nothing new are left
out.
-/

namespace WasmTyping

def MemArg.shownAlign (a : MemArg) : Nat := min a.align.toNat 63

def MemArg.text (a : MemArg) : String :=
  (if a.memory = 0 then "" else " " ++ a.memory.toNat.repr) ++
    (if a.offset = 0 then "" else " offset=" ++ a.offset.toNat.repr) ++
    " align=" ++ (Nat.pow 2 a.shownAlign).repr

def BlockType.text : BlockType → String
  | .empty => ""
  | .result t => " (result " ++ t.name ++ ")"
  | .func i => " (type " ++ i.toNat.repr ++ ")"

def BranchTable.text (t : BranchTable) : String :=
  String.join ((t.targets ++ [t.fallback]).map fun d => " " ++ d.toNat.repr)

def signedText (n : Int) : String :=
  if n < 0 then "-" ++ n.natAbs.repr else n.natAbs.repr

namespace Operator

def immediatesText : Operator → String
  | .enter _ type => type.text
  | .br d | .brIf d => " " ++ d.toNat.repr
  | .brTable table => table.text
  | .call i => " " ++ i.toNat.repr
  | .callIndirect type table => " " ++ type.toNat.repr ++ " " ++ table.toNat.repr
  | .localGet i | .localSet i | .localTee i => " " ++ i.toNat.repr
  | .globalGet i | .globalSet i => " " ++ i.toNat.repr
  | .load _ arg | .store _ arg => arg.text
  | .memorySize i | .memoryGrow i => " " ++ i.toNat.repr
  | .i32Const n => " " ++ signedText n.toInt
  | .i64Const n => " " ++ signedText n.toInt
  | .f32Const bits => " " ++ (Decimal.binary32.decode bits.toNat).text
  | .f64Const bits => " " ++ (Decimal.binary64.decode bits.toNat).text
  | .unreachable | .nop | .elseArm | .endBlock | .ret | .drop | .select | .numeric _ => ""

def text (op : Operator) : String := op.name ++ op.immediatesText

end Operator

end WasmTyping
