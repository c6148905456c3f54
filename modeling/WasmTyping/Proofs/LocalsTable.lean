import WasmTyping.Locals

/-!
# The table of locals

The table keeps one run per group of locals. It answers as the list does in which every local has an
entry of its own, and a group fits exactly when that list stays within the limit. Each run ends before
all newer ones, so that a search by halving finds the run of a local too.
-/

namespace WasmTyping

namespace Locals

def expand (groups : List (UInt32 × ValueType)) : List ValueType :=
  groups.flatMap fun (count, type) => List.replicate count.toNat type

@[simp]
theorem expand_nil : expand [] = [] := rfl

@[simp]
theorem expand_cons (count : UInt32) (type : ValueType) (groups : List (UInt32 × ValueType)) :
    expand ((count, type) :: groups) = List.replicate count.toNat type ++ expand groups := rfl

def total : List (UInt32 × ValueType) → Nat
  | [] => 0
  | (count, _) :: groups => count.toNat + total groups

theorem length_expand (groups : List (UInt32 × ValueType)) :
    (expand groups).length = total groups := by
  induction groups with
  | nil => rfl
  | cons group groups ih =>
    obtain ⟨count, type⟩ := group
    rw [expand_cons, List.length_append, List.length_replicate, ih, total]

theorem expand_ones (types : List ValueType) : expand (types.map ((1 : UInt32), ·)) = types := by
  induction types with
  | nil => rfl
  | cons t ts ih => rw [List.map_cons, expand_cons, ih, UInt32.toNat_one]; rfl

inductive Tiles : List Run → List ValueType → Prop where
  | nil : Tiles [] []
  | cons {runs : List Run} {types : List ValueType} {last count : UInt32} {type : ValueType}
      (h : Tiles runs types) (hcount : count ≠ 0)
      (hlast : last.toNat + 1 = types.length + count.toNat) :
      Tiles (⟨last, type⟩ :: runs) (types ++ List.replicate count.toNat type)

/-- The table holds exactly the locals of the list. -/
structure Lists (l : Locals) (types : List ValueType) : Prop where
  count : l.count.toNat = types.length
  tiles : Tiles l.runs types
  fits : types.length ≤ limit

variable {l l' : Locals} {types : List ValueType} {count : UInt32} {type : ValueType}

theorem lists_empty : Lists {} [] := ⟨rfl, .nil, Nat.zero_le _⟩

theorem typeIn_cons {i last : UInt32} {runs : List Run}
    (hlast : last.toNat + 1 = types.length + count.toNat) (holder : typeIn i runs = types[i.toNat]?)
    (hcount : count ≠ 0) :
    typeIn i (⟨last, type⟩ :: runs) = (types ++ List.replicate count.toNat type)[i.toNat]? := by
  have hpos : 0 < count.toNat := Nat.pos_of_ne_zero fun h => hcount (UInt32.toNat_inj.1 h)
  rw [typeIn, holder, List.getElem?_append]
  by_cases hin : i.toNat < types.length
  · have hle : i ≤ last := UInt32.le_iff_toNat_le.2 (by omega)
    rw [if_pos hle, if_pos hin, List.getElem?_eq_getElem hin, Option.some_or]
  · rw [if_neg hin, List.getElem?_eq_none (Nat.not_lt.1 hin), Option.none_or,
      List.getElem?_replicate]
    by_cases hle : i ≤ last
    · have := UInt32.le_iff_toNat_le.1 hle
      rw [if_pos hle, if_pos (by omega)]
    · have := UInt32.lt_iff_toNat_lt.1 (UInt32.not_le.1 hle)
      rw [if_neg hle, if_neg (by omega)]

theorem Tiles.typeIn_eq {runs : List Run} (h : Tiles runs types) (i : UInt32) :
    typeIn i runs = types[i.toNat]? := by
  induction h with
  | nil => rfl
  | cons _ hcount hlast ih => exact typeIn_cons hlast ih hcount

theorem Lists.type? (h : l.Lists types) (i : UInt32) : l.type? i = types[i.toNat]? :=
  h.tiles.typeIn_eq i

theorem define_eq_true (hdefine : l.define count type = (true, l')) :
    count = 0 ∧ l' = l ∨ count ≠ 0 ∧ l.count.toNat + count.toNat ≤ limit ∧
      l' = ⟨l.count + count, ⟨l.count + count - 1, type⟩ :: l.runs⟩ := by
  unfold define at hdefine
  dsimp only at hdefine
  split at hdefine
  next hzero =>
    cases hdefine
    exact .inl ⟨hzero, rfl⟩
  next hcount =>
    split at hdefine
    next => cases hdefine
    next =>
      split at hdefine
      next => cases hdefine
      next hlimit =>
        cases hdefine
        exact .inr ⟨hcount, Nat.not_lt.1 hlimit, rfl⟩

theorem Lists.define (h : l.Lists types) (hdefine : l.define count type = (true, l')) :
    l'.Lists (types ++ List.replicate count.toNat type) := by
  obtain ⟨rfl, rfl⟩ | ⟨hcount, hlimit, rfl⟩ := define_eq_true hdefine
  · simpa using h
  · have hpos : 0 < count.toNat := Nat.pos_of_ne_zero fun hz => hcount (UInt32.toNat_inj.1 hz)
    have hsum := h.count
    have htotal : (l.count + count).toNat = types.length + count.toNat := by
      rw [UInt32.toNat_add, hsum, Nat.mod_eq_of_lt]
      simp only [limit] at hlimit
      omega
    have hone : 1 ≤ l.count + count := UInt32.le_iff_toNat_le.2 (by
      rw [htotal, UInt32.toNat_one]
      omega)
    have hlast : (l.count + count - 1).toNat + 1 = types.length + count.toNat := by
      rw [UInt32.toNat_sub_of_le _ _ hone, htotal, UInt32.toNat_one]
      omega
    exact ⟨by simp [htotal], .cons h.tiles hcount hlast, by simpa [← hsum] using hlimit⟩

theorem Lists.define_of_le (h : l.Lists types) (type : ValueType)
    (hfits : types.length + count.toNat ≤ limit) : ∃ l', l.define count type = (true, l') := by
  unfold Locals.define
  dsimp only
  rw [h.count]
  by_cases hzero : count = 0
  · exact ⟨_, if_pos hzero⟩
  · rw [if_neg hzero, if_neg (by simp only [limit, UInt32.size] at *; omega),
      if_neg (Nat.not_lt.2 hfits)]
    exact ⟨_, rfl⟩

theorem Lists.types_eq (h : l.Lists types) : l.types = types := by
  have hcount := h.count
  have htake (n : Nat) (hn : n ≤ types.length) :
      (List.range n).filterMap (fun i => l.type? (UInt32.ofNat i)) = types.take n := by
    induction n with
    | zero => rfl
    | succ n ih =>
      have hindex : (UInt32.ofNat n).toNat = n := UInt32.toNat_ofNat_of_lt' (by
        have := l.count.toNat_lt
        simp only [UInt32.size]
        omega)
      rw [List.range_succ, List.filterMap_append, ih (by omega), List.take_add_one,
        List.filterMap_cons, h.type?, hindex]
      cases types[n]? <;> rfl
  rw [Locals.types, hcount, htake _ (Nat.le_refl _), List.take_length]

theorem Lists.count_eq_zero_iff (h : l.Lists types) : l.count = 0 ↔ types = [] := by
  rw [← UInt32.toNat_inj, h.count, UInt32.toNat_zero, List.length_eq_zero_iff]

theorem Tiles.last_lt {runs : List Run} (h : Tiles runs types) {run : Run} (hrun : run ∈ runs) :
    run.last.toNat < types.length := by
  induction h with
  | nil => cases hrun
  | cons _ hcount hlast ih =>
    rw [List.length_append, List.length_replicate]
    rcases List.mem_cons.1 hrun with rfl | hrun
    · dsimp only
      omega
    · have := ih hrun
      omega

theorem Tiles.ordered {runs : List Run} (h : Tiles runs types) :
    runs.Pairwise fun newer older => older.last < newer.last := by
  induction h with
  | nil => exact .nil
  | @cons runs types last count type h hcount hlast ih =>
    refine .cons ?_ ih
    intro older hold
    have hbound := h.last_lt hold
    have hpos : 0 < count.toNat := Nat.pos_of_ne_zero fun h => hcount (UInt32.toNat_inj.1 h)
    exact UInt32.lt_iff_toNat_lt.2 (show older.last.toNat < last.toNat by omega)

/-- The place of the first run in the array that does not end before the index. The part of the array
from `lo` to `hi` is halved until a run ends at the index or nothing is left of it. -/
def bisect (runs : Array Run) (i : UInt32) (lo hi : Nat) (hsize : hi ≤ runs.size) : Nat :=
  if h : lo < hi then
    let mid := lo + (hi - lo) / 2
    have hmid : mid < runs.size := by omega
    if runs[mid].last = i then mid
    else if runs[mid].last < i then bisect runs i (mid + 1) hi hsize
    else bisect runs i lo mid (by omega)
  else lo
termination_by hi - lo

def search? (l : Locals) (i : UInt32) : Option ValueType :=
  let runs := l.runs.reverse.toArray
  runs[bisect runs i 0 runs.size (Nat.le_refl _)]?.map Run.type

structure Splits (runs : Array Run) (i : UInt32) (lo hi : Nat) : Prop where
  before : ∀ k (hk : k < runs.size), k < lo → runs[k].last < i
  after : ∀ k (hk : k < runs.size), hi ≤ k → i ≤ runs[k].last

section Bisect

variable {runs : Array Run} {i : UInt32} {lo hi place : Nat}

theorem last_lt_last (hordered : runs.toList.Pairwise (·.last < ·.last)) {j k : Nat}
    (hk : k < runs.size) (hjk : j < k) : runs[j].last < runs[k].last := by
  have hpair := List.pairwise_iff_getElem.1 hordered j k
  simp only [Array.getElem_toList] at hpair
  exact hpair (Nat.lt_trans hjk hk) hk hjk

theorem bisect_splits (hordered : runs.toList.Pairwise (·.last < ·.last)) (hsize : hi ≤ runs.size)
    (h : Splits runs i lo hi) (hle : lo ≤ hi) :
    Splits runs i (bisect runs i lo hi hsize) (bisect runs i lo hi hsize) := by
  fun_induction bisect runs i lo hi hsize with
  | case1 lo hi hsize hopen mid hmid heq =>
    constructor
    · intro k hk hkm
      exact heq ▸ last_lt_last hordered hmid hkm
    · intro k hk hmk
      rcases Nat.lt_or_eq_of_le hmk with hmk | rfl
      · exact UInt32.le_of_lt (heq ▸ last_lt_last hordered hk hmk)
      · exact heq ▸ UInt32.le_refl _
  | case2 lo hi hsize hopen mid hmid hne hbefore ih =>
    refine ih ⟨?_, h.after⟩ (by omega)
    intro k hk hkm
    rcases Nat.lt_or_eq_of_le (Nat.le_of_lt_succ hkm) with hkm | rfl
    · exact UInt32.lt_trans (last_lt_last hordered hmid hkm) hbefore
    · exact hbefore
  | case3 lo hi hsize hopen mid hmid hne hbefore ih =>
    refine ih ⟨h.before, ?_⟩ (by omega)
    intro k hk hmk
    have hfrom : i ≤ runs[mid].last := UInt32.not_lt.1 hbefore
    rcases Nat.lt_or_eq_of_le hmk with hmk | rfl
    · exact UInt32.le_trans hfrom (UInt32.le_of_lt (last_lt_last hordered hk hmk))
    · exact hfrom
  | case4 lo hi hsize hdone =>
    obtain rfl : lo = hi := by omega
    exact h

theorem Splits.find?_eq (h : Splits runs i place place) :
    runs.toList.find? (fun run => i ≤ run.last) = runs[place]? := by
  rcases Nat.lt_or_ge place runs.size with hlt | hge
  · rw [Array.getElem?_eq_getElem hlt, List.find?_eq_some_iff_getElem]
    refine ⟨by simpa using h.after place hlt (Nat.le_refl _), place, by simpa, by simp, ?_⟩
    intro k hk
    simpa using h.before k (by omega) hk
  · rw [Array.getElem?_eq_none hge, List.find?_eq_none]
    intro run hrun
    obtain ⟨k, hk, rfl⟩ := List.getElem_of_mem hrun
    simpa using h.before k (by simpa using hk) (Nat.lt_of_lt_of_le (by simpa using hk) hge)

end Bisect

theorem typeIn_eq_find? {runs : List Run}
    (hordered : runs.Pairwise fun newer older => older.last < newer.last) (i : UInt32) :
    typeIn i runs = (runs.reverse.find? fun run => i ≤ run.last).map Run.type := by
  induction hordered with
  | nil => rfl
  | @cons run older hnewest _ ih =>
    rw [typeIn, ih, List.reverse_cons, List.find?_append]
    by_cases hle : i ≤ run.last
    · rw [if_pos hle]
      cases older.reverse.find? fun run => i ≤ run.last <;> simp [hle]
    · have hnone : older.reverse.find? (fun run => i ≤ run.last) = none := by
        rw [List.find?_eq_none]
        intro old hold hat
        have hlt := hnewest old (List.mem_reverse.1 hold)
        exact hle (UInt32.le_trans (of_decide_eq_true hat) (UInt32.le_of_lt hlt))
      rw [if_neg hle, hnone]
      simp [hle]

theorem search?_eq_type? (hordered : l.runs.Pairwise fun newer older => older.last < newer.last)
    (i : UInt32) : l.search? i = l.type? i := by
  have hsorted : l.runs.reverse.toArray.toList.Pairwise (·.last < ·.last) :=
    List.pairwise_reverse.2 hordered
  have hall : Splits l.runs.reverse.toArray i 0 l.runs.reverse.toArray.size :=
    ⟨fun k _ hk => absurd hk (Nat.not_lt_zero k), fun k hk hge => absurd hk (Nat.not_lt.2 hge)⟩
  have hplace := bisect_splits hsorted (Nat.le_refl _) hall (Nat.zero_le _)
  rw [type?, typeIn_eq_find? hordered, search?, ← hplace.find?_eq]

theorem Lists.search?_eq (h : l.Lists types) (i : UInt32) : l.search? i = types[i.toNat]? := by
  rw [search?_eq_type? h.tiles.ordered, h.type?]

end Locals

end WasmTyping
