import Mathlib.Data.List.Nodup
import WasmTyping.Operator.Basic

/-!
# Names of operators

No two mnemonics have the same name, so a name and its mnemonic determine each other. No name begins
with a blank.
-/

namespace WasmTyping

theorem IntRelation.mem_all (r : IntRelation) : r ∈ all := by
  rcases r with _ | _ | ⟨⟨⟩⟩ | ⟨⟨⟩⟩ | ⟨⟨⟩⟩ | ⟨⟨⟩⟩ <;> decide

theorem IntBinary.mem_all (op : IntBinary) : op ∈ all := by
  cases op with
  | div s | rem s | shr s => cases s <;> decide
  | _ => decide

theorem NumericOp.mem_all (op : NumericOp) : op ∈ all := by
  cases op with
  | eqz t => cases t <;> decide
  | intCompare t r =>
    have hr := r.mem_all
    cases t <;> simp [all, IntType.all, hr]
  | floatCompare t r => cases t <;> cases r <;> decide
  | intUnary t o => cases t <;> cases o <;> decide
  | intBinary t o =>
    have ho := o.mem_all
    cases t <;> simp [all, IntType.all, ho]
  | floatUnary t o => cases t <;> cases o <;> decide
  | floatBinary t o => cases t <;> cases o <;> decide
  | wrap | demote | promote => decide
  | extend s => cases s <;> decide
  | trunc i f s | truncSat i f s | convert f i s => cases i <;> cases f <;> cases s <;> decide
  | toBits f | ofBits f => cases f <;> decide
  | signExtend p => cases p <;> decide

theorem Load.mem_all (l : Load) : l ∈ all := by
  rcases l with ⟨⟨⟩⟩ | ⟨⟨⟩, ⟨⟩⟩ <;> decide

theorem Store.mem_all (s : Store) : s ∈ all := by
  rcases s with ⟨⟨⟩⟩ | ⟨⟨⟩⟩ <;> decide

namespace Mnemonic

theorem mem_all (m : Mnemonic) : m ∈ all := by
  cases m with
  | enter c => cases c <;> simp [all, Construct.all]
  | load l => simp [all, l.mem_all]
  | store s => simp [all, s.mem_all]
  | numeric op => simp [all, op.mem_all]
  | _ => simp [all]

/-- The bytes of a text as the digits of one number. Numbers are compared faster than texts. -/
def code (s : String) : Nat :=
  s.toByteArray.data.toList.foldl (fun n byte => n * 256 + byte.toNat) 0

theorem nodup_codes : (all.map fun m => code m.name).Nodup := by
  decide +kernel

theorem name_injective {m m' : Mnemonic} (h : m.name = m'.name) : m = m' :=
  List.inj_on_of_nodup_map nodup_codes m.mem_all m'.mem_all (congrArg code h)

theorem ofName?_eq_some_iff {s : String} {m : Mnemonic} : ofName? s = some m ↔ s = m.name := by
  have hmem : ∀ s' m', (s', m') ∈ table → s' = m'.name := by
    intro s' m' h
    obtain ⟨m'', -, heq⟩ := List.mem_map.1 h
    cases heq
    rfl
  constructor
  · intro h
    obtain ⟨before, after, htable, -⟩ := List.lookup_eq_some_iff.1 h
    exact hmem s m (by simp [htable])
  · rintro rfl
    cases hfound : ofName? m.name with
    | none =>
      have habsent := List.lookup_eq_none_iff.1 hfound (m.name, m) (List.mem_map_of_mem m.mem_all)
      simp at habsent
    | some m' =>
      obtain ⟨before, after, htable, -⟩ := List.lookup_eq_some_iff.1 hfound
      rw [name_injective (hmem m.name m' (by simp [htable]))]

end Mnemonic

def unindented (s : String) : Bool := s.toList.head?.any (· ≠ ' ')

theorem unindented_append {s : String} (h : unindented s = true) (t : String) :
    unindented (s ++ t) = true := by
  obtain ⟨c, hc, hne⟩ := (Option.any_eq_true ..).1 h
  rw [unindented, String.toList_append, List.head?_append, hc]
  exact hne

theorem IntType.unindented_name (t : IntType) (rest : String) :
    unindented (t.name ++ rest) = true := by
  apply unindented_append
  cases t <;> decide +kernel

theorem FloatType.unindented_name (t : FloatType) (rest : String) :
    unindented (t.name ++ rest) = true := by
  apply unindented_append
  cases t <;> decide +kernel

theorem ValueType.unindented_name (t : ValueType) (rest : String) :
    unindented (t.name ++ rest) = true := by
  apply unindented_append
  cases t <;> decide +kernel

theorem NumericOp.unindented_name (op : NumericOp) : unindented op.name = true := by
  cases op with
  | wrap | demote | promote => decide +kernel
  | extend s => exact unindented_append (by decide +kernel) _
  | eqz t => exact t.unindented_name _
  | intCompare t _ | intUnary t _ | intBinary t _ => exact unindented_append (t.unindented_name _) _
  | floatCompare t _ | floatUnary t _ | floatBinary t _ =>
    exact unindented_append (t.unindented_name _) _
  | toBits t => exact unindented_append (t.sameWidth.unindented_name _) _
  | ofBits t => exact unindented_append (t.unindented_name _) _
  | trunc t _ _ | truncSat t _ _ =>
    exact unindented_append (unindented_append (t.unindented_name _) _) _
  | convert t _ _ => exact unindented_append (unindented_append (t.unindented_name _) _) _
  | signExtend p => exact unindented_append (unindented_append (p.type.unindented_name _) _) _

theorem Mnemonic.unindented_name (m : Mnemonic) : unindented m.name = true := by
  cases m with
  | enter c => cases c <;> decide +kernel
  | load l =>
    cases l with
    | whole t => exact t.unindented_name _
    | part p s => exact unindented_append (unindented_append (p.type.unindented_name _) _) _
  | store s =>
    cases s with
    | whole t => exact t.unindented_name _
    | part p => exact unindented_append (p.type.unindented_name _) _
  | numeric op => exact op.unindented_name
  | _ => decide +kernel

end WasmTyping
