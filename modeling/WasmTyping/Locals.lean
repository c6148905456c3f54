import WasmTyping.ValueType

/-!
# Local variables

Locals are declared in groups of one type. The table keeps one run per group, with the index of the
run's last local, so its size does not depend on the counts.
-/

namespace WasmTyping

structure Locals.Run where
  last : UInt32
  type : ValueType
deriving DecidableEq

/-- The declared locals, parameters first. Runs are kept newest first. -/
structure Locals where
  count : UInt32 := 0
  runs : List Locals.Run := []
deriving DecidableEq

namespace Locals

def limit : Nat := 50000

/-- Declares a further group and says whether it fits. A group that passes the limit is counted
but not entered; one whose count cannot even be added changes nothing. -/
def define (l : Locals) (count : UInt32) (type : ValueType) : Bool × Locals :=
  let total := l.count.toNat + count.toNat
  if count = 0 then (true, l)
  else if UInt32.size ≤ total then (false, l)
  else if limit < total then (false, { l with count := l.count + count })
  else
    let count := l.count + count
    (true, { count, runs := ⟨count - 1, type⟩ :: l.runs })

/-- The type of the run that an index falls into: the oldest run that does not end before it. -/
def typeIn (i : UInt32) : List Run → Option ValueType
  | [] => none
  | run :: older => if i ≤ run.last then (typeIn i older).or (some run.type) else none

def type? (l : Locals) (i : UInt32) : Option ValueType := typeIn i l.runs

def types (l : Locals) : List ValueType :=
  (List.range l.count.toNat).filterMap fun i => l.type? (UInt32.ofNat i)

end Locals

end WasmTyping
