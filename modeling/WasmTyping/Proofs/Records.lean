import Mathlib.Data.List.Forall2
import WasmTyping.Form.Operator

/-!
# Presentations of records

A record has many presentations: an object with its fields in any order and with unknown fields among
them, or an array of its fields, where fields that have their default may be missing. What presents
a record is said here by its fields alone, and a record is read from a value exactly if the value
presents it.
-/

namespace WasmTyping.Form

/-- A field of a record: its name, the values that present its content, and whether it may be left
out. -/
structure Field where
  name : String
  PresentedBy : Json → Prop
  Omissible : Prop

namespace Field

def required {α : Type} (name : String) (present : α → Json → Prop) (x : α) : Field :=
  ⟨name, present x, False⟩

def optional {α : Type} (name : String) (fallback : α) (present : α → Json → Prop) (x : α) : Field :=
  ⟨name, present x, x = fallback⟩

@[simp]
theorem required_name {α : Type} (name : String) (present : α → Json → Prop) (x : α) :
    (required name present x).name = name := rfl

@[simp]
theorem optional_name {α : Type} (name : String) (fallback : α) (present : α → Json → Prop) (x : α) :
    (optional name fallback present x).name = name := rfl

def GivenBy (f : Field) : List Json → Prop
  | [] => f.Omissible
  | [j] => f.PresentedBy j
  | _ => False

theorem givenBy_iff (f : Field) (values : List Json) :
    f.GivenBy values ↔ values.length ≤ 1 ∧ f.GivenBy values.head?.toList := by
  match values with
  | [] => simp [GivenBy]
  | [j] => simp [GivenBy]
  | _ :: _ :: _ => simp [GivenBy]

end Field

def valuesOf (name : String) (entries : List (Json.Text × Json)) : List Json :=
  (entries.filter fun e => e.1 = some name).map Prod.snd

def InOrder : List Field → List Json → Prop
  | [], items => items = []
  | f :: fields, [] => f.Omissible ∧ InOrder fields []
  | f :: fields, j :: items => f.PresentedBy j ∧ InOrder fields items

/-- The value is a record with the given fields. In an object the order of entries is free, and
there may be entries with other keys. -/
def PresentedBy (fields : List Field) : Json → Prop
  | .object entries =>
    (∀ e ∈ entries, e.1.isSome) ∧ ∀ f ∈ fields, f.GivenBy (valuesOf f.name entries)
  | .array items => InOrder fields items
  | _ => False

/-- No record with these names can be read from the value: in an object a field is repeated or a
required one missing, or an array has too many items or ends before a required field. -/
def Malformed (names required : List String) : Json → Prop
  | .object entries =>
    (∃ name ∈ names, 1 < (valuesOf name entries).length) ∨ ∃ name ∈ required, valuesOf name entries = []
  | .array items => names.length < items.length ∨ ∃ name ∈ required, name ∈ names.drop items.length
  | _ => False

/-! ## Objects -/

@[simp]
theorem valuesOf_nil (name : String) : valuesOf name [] = [] := rfl

theorem valuesOf_cons (name : String) (key : Json.Text) (value : Json)
    (entries : List (Json.Text × Json)) :
    valuesOf name ((key, value) :: entries) =
      if key = some name then value :: valuesOf name entries else valuesOf name entries := by
  by_cases h : key = some name <;> simp [valuesOf, h]

theorem known_isSome_iff (names : List String) {entries : List (Json.Text × Json)} :
    (Record.known names entries).isSome ↔ ∀ e ∈ entries, e.1.isSome := by
  induction entries with
  | nil => simp [Record.known]
  | cons entry entries ih =>
    obtain ⟨_ | key, value⟩ := entry
    · simp [Record.known]
    · simp [Record.known, ih]

section Known

variable {names : List String} {entries : List (Json.Text × Json)} {fields : List (String × Json)}

theorem mem_of_known (h : Record.known names entries = some fields) : ∀ f ∈ fields, f.1 ∈ names := by
  induction entries generalizing fields with
  | nil =>
    obtain rfl : [] = fields := by simpa [Record.known] using h
    simp
  | cons entry entries ih =>
    obtain ⟨_ | key, value⟩ := entry
    · simp [Record.known] at h
    · obtain ⟨rest, hrest, rfl⟩ := Option.map_eq_some_iff.1 h
      intro f hf
      split at hf
      next hkey =>
        rcases List.mem_cons.1 hf with rfl | hf
        · simpa using hkey
        · exact ih hrest f hf
      next => exact ih hrest f hf

theorem known_values (h : Record.known names entries = some fields) {name : String}
    (hname : name ∈ names) :
    (fields.map Prod.fst).count name = (valuesOf name entries).length ∧
      fields.lookup name = (valuesOf name entries).head? := by
  induction entries generalizing fields with
  | nil =>
    obtain rfl : [] = fields := by simpa [Record.known] using h
    simp
  | cons entry entries ih =>
    obtain ⟨_ | key, value⟩ := entry
    · simp [Record.known] at h
    · obtain ⟨rest, hrest, rfl⟩ := Option.map_eq_some_iff.1 h
      obtain ⟨hcount, hlookup⟩ := ih hrest
      rw [valuesOf_cons]
      by_cases hkey : key = name
      · subst hkey
        simp [hname, hcount]
      · have hother : (name == key) = false := by simpa using Ne.symm hkey
        split
        · simp [List.lookup_cons, hkey, hother, hcount, hlookup]
        · simp [hkey, hcount, hlookup]

theorem known_nodup_iff (h : Record.known names entries = some fields) :
    (fields.map Prod.fst).Nodup ↔ ∀ name ∈ names, (valuesOf name entries).length ≤ 1 := by
  rw [List.nodup_iff_count]
  constructor
  · intro hcount name hname
    rw [← (known_values h hname).1]
    exact hcount name
  · intro hvalues name
    by_cases hname : name ∈ names
    · rw [(known_values h hname).1]
      exact hvalues name hname
    · have habsent : name ∉ fields.map Prod.fst := by
        intro hmem
        obtain ⟨f, hf, rfl⟩ := List.mem_map.1 hmem
        exact hname (mem_of_known h f hf)
      rw [List.count_eq_zero.2 habsent]
      exact Nat.zero_le 1

end Known

/-! ## Reading a record -/

theorem inOrder_iff {fields : List Field} (hnames : (fields.map Field.name).Nodup)
    (items : List Json) :
    InOrder fields items ↔ items.length ≤ fields.length ∧
      ∀ f ∈ fields, f.GivenBy (((fields.map Field.name).zip items).lookup f.name).toList := by
  induction fields generalizing items with
  | nil => simp [InOrder]
  | cons f fields ih =>
    obtain ⟨hf, hnames⟩ := List.nodup_cons.1 hnames
    cases items with
    | nil => simp [InOrder, ih hnames, Field.GivenBy]
    | cons j items =>
      have hpass : ∀ g ∈ fields,
          ((f.name, j) :: (fields.map Field.name).zip items).lookup g.name =
            ((fields.map Field.name).zip items).lookup g.name := by
        intro g hg
        have hother : (g.name == f.name) = false := by
          rw [beq_eq_false_iff_ne]
          intro heq
          exact hf (heq ▸ List.mem_map_of_mem hg)
        rw [List.lookup_cons, hother]
      simp only [InOrder, ih hnames, List.map_cons, List.zip_cons_cons, List.length_cons,
        Nat.add_le_add_iff_right, List.forall_mem_cons, List.lookup_cons_self, Option.toList_some,
        Field.GivenBy]
      constructor
      · rintro ⟨hj, hlength, hfields⟩
        exact ⟨hlength, hj, fun g hg => hpass g hg ▸ hfields g hg⟩
      · rintro ⟨hlength, hj, hfields⟩
        exact ⟨hj, hlength, fun g hg => hpass g hg ▸ hfields g hg⟩

theorem exists_record_iff {fields : List Field} {names : List String}
    (hfields : fields.map Field.name = names) (hnames : names.Nodup) (j : Json) :
    (∃ r, Record.ofJson? names j = some r ∧ ∀ f ∈ fields, f.GivenBy (r.get? f.name).toList) ↔
      PresentedBy fields j := by
  subst hfields
  cases j with
  | null | bool | number | string => simp [Record.ofJson?, PresentedBy]
  | array items =>
    rw [PresentedBy, inOrder_iff hnames]
    simp [Record.ofJson?, Record.get?]
  | object entries =>
    rw [PresentedBy, ← known_isSome_iff (fields.map Field.name)]
    cases hknown : Record.known (fields.map Field.name) entries with
    | none => simp [Record.ofJson?, hknown]
    | some found =>
      have hget : ∀ f ∈ fields, found.lookup f.name = (valuesOf f.name entries).head? :=
        fun f hf => (known_values hknown (List.mem_map_of_mem hf)).2
      -- The lookup finds the first value under a name. That there is no second is checked apart.
      have hsplit : (∀ f ∈ fields, f.GivenBy (valuesOf f.name entries)) ↔
          (found.map Prod.fst).Nodup ∧ ∀ f ∈ fields, f.GivenBy (found.lookup f.name).toList := by
        rw [known_nodup_iff hknown, List.forall_mem_map, ← forall₂_and]
        refine forall₂_congr fun f hf => ?_
        rw [hget f hf, ← Field.givenBy_iff]
      rw [hsplit]
      simp [Record.ofJson?, hknown, Record.get?]

def Reads {α : Type} (read? : Json → Option α) (present : α → Json → Prop) : Prop :=
  ∀ x j, read? j = some x ↔ present x j

section Reads

variable {α : Type} {read? : Json → Option α} {present : α → Json → Prop}

theorem Reads.required_eq_some_iff (h : Reads read? present) {r : Record} {name : String} {x : α} :
    r.required name read? = some x ↔ (Field.required name present x).GivenBy (r.get? name).toList := by
  cases hget : r.get? name with
  | none => simp [Record.required, hget, Field.GivenBy, Field.required]
  | some j => simpa [Record.required, hget, Field.GivenBy, Field.required] using h x j

theorem Reads.optional_eq_some_iff (h : Reads read? present) {r : Record} {name : String}
    {fallback x : α} : r.optional name fallback read? = some x ↔
      (Field.optional name fallback present x).GivenBy (r.get? name).toList := by
  cases hget : r.get? name with
  | none => simp [Record.optional, hget, Field.GivenBy, Field.optional, eq_comm]
  | some j => simpa [Record.optional, hget, Field.GivenBy, Field.optional] using h x j

def ListPresentedBy (present : α → Json → Prop) (xs : List α) (j : Json) : Prop :=
  ∃ items, j = .array items ∧ List.Forall₂ present xs items

theorem Reads.list (h : Reads read? present) : Reads (readList? read?) (ListPresentedBy present) := by
  have hitems : ∀ (items : List Json) (xs : List α),
      items.mapM read? = some xs ↔ List.Forall₂ present xs items := by
    intro items
    induction items with
    | nil => simp [eq_comm]
    | cons j items ih =>
      intro xs
      cases xs with
      | nil => simp [List.mapM_cons, Option.bind_eq_some_iff]
      | cons x xs => simp [List.mapM_cons, Option.bind_eq_some_iff, h x j, ih]
  intro xs j
  cases j with
  | array items => simpa [readList?, ListPresentedBy] using hitems items xs
  | _ => simp [readList?, ListPresentedBy]

def NullablePresentedBy (present : α → Json → Prop) : Option α → Json → Prop
  | none, j => j = .null
  | some x, j => present x j

theorem Reads.nullable (h : Reads read? present) (hnull : read? .null = none) :
    Reads (readNullable? read?) (NullablePresentedBy present) := by
  have habsent : ∀ x, ¬ present x .null := by
    intro x hx
    rw [(h x .null).2 hx] at hnull
    cases hnull
  intro x j
  cases x with
  | none => cases j <;> simp [readNullable?, NullablePresentedBy]
  | some x => cases j <;> simp [readNullable?, NullablePresentedBy, habsent, h x]

end Reads

/-! ## Tagged records -/

theorem valuesOf_filter_ne {name tag : String} (hne : name ≠ tag)
    (entries : List (Json.Text × Json)) :
    valuesOf name (entries.filter fun e => ¬ e.1 = some tag) = valuesOf name entries := by
  rw [valuesOf, List.filter_filter, valuesOf]
  congr 2
  funext e
  by_cases h : e.1 = some name <;> simp [h, hne]

theorem exists_splitTag_iff (tag : Field) (fields : List Field) (htag : ¬ tag.Omissible)
    (hfields : tag.name ∉ fields.map Field.name) (j : Json) :
    (∃ value rest, splitTag? tag.name j = some (value, rest) ∧ tag.PresentedBy value ∧
      PresentedBy fields rest) ↔ PresentedBy (tag :: fields) j := by
  cases j with
  | null | bool | number | string => simp [splitTag?, PresentedBy]
  | array items =>
    cases items with
    | nil => simp [splitTag?, PresentedBy, InOrder, htag]
    | cons item items => simp [splitTag?, PresentedBy, InOrder]
  | object entries =>
    -- Entries with the tag as their key are taken out. They have characters, and are no other field.
    have hkeys : (∀ e ∈ entries.filter fun e => ¬ e.1 = some tag.name, e.1.isSome) ↔
        ∀ e ∈ entries, e.1.isSome := by
      constructor
      · intro h e he
        by_cases hkey : e.1 = some tag.name
        · rw [hkey]
          rfl
        · exact h e (List.mem_filter.2 ⟨he, by simpa using hkey⟩)
      · exact fun h e he => h e (List.mem_of_mem_filter he)
    have hrest : (∀ f ∈ fields, f.GivenBy
        (valuesOf f.name (entries.filter fun e => ¬ e.1 = some tag.name))) ↔
          ∀ f ∈ fields, f.GivenBy (valuesOf f.name entries) := by
      refine forall₂_congr fun f hf => ?_
      have hne : f.name ≠ tag.name := by
        intro heq
        exact hfields (heq ▸ List.mem_map_of_mem hf)
      rw [valuesOf_filter_ne hne]
    rw [PresentedBy, List.forall_mem_cons, valuesOf, ← hkeys, ← hrest]
    match hfound : entries.filter fun e => e.1 = some tag.name with
    | [] => simp [splitTag?, hfound, Field.GivenBy, htag]
    | [(key, value)] =>
      simp only [splitTag?, hfound, List.map_cons, List.map_nil]
      constructor
      · rintro ⟨_, _, heq, hvalue, hpresented⟩
        cases heq
        exact ⟨hpresented.1, hvalue, hpresented.2⟩
      · rintro ⟨hkeys, hvalue, hgiven⟩
        exact ⟨_, _, rfl, hvalue, hkeys, hgiven⟩
    | _ :: _ :: _ => simp [splitTag?, hfound, Field.GivenBy]

/-! ## Rejected values -/

theorem InOrder.length_le {fields : List Field} {items : List Json} (h : InOrder fields items) :
    items.length ≤ fields.length := by
  induction fields generalizing items with
  | nil => simp [show items = [] from h]
  | cons f fields ih =>
    cases items with
    | nil => exact Nat.zero_le _
    | cons j items => exact Nat.succ_le_succ (ih h.2)

theorem InOrder.omissible {fields : List Field} {items : List Json} (h : InOrder fields items) :
    ∀ f ∈ fields.drop items.length, f.Omissible := by
  induction fields generalizing items with
  | nil => simp
  | cons f fields ih =>
    cases items with
    | nil =>
      intro g hg
      rcases List.mem_cons.1 hg with rfl | hg
      · exact h.1
      · exact ih h.2 g hg
    | cons j items => exact ih h.2

theorem not_presentedBy_of_malformed {fields : List Field} {names required : List String} {j : Json}
    (hfields : fields.map Field.name = names)
    (hrequired : required ⊆ names)
    (homit : ∀ f ∈ fields, f.name ∈ required → ¬ f.Omissible)
    (h : Malformed names required j) : ¬ PresentedBy fields j := by
  subst hfields
  cases j with
  | null | bool | number | string => exact h.elim
  | object entries =>
    rintro ⟨-, hgiven⟩
    rcases h with ⟨name, hname, hrepeated⟩ | ⟨name, hname, hmissing⟩
    · obtain ⟨f, hf, rfl⟩ := List.mem_map.1 hname
      have honce := ((f.givenBy_iff _).1 (hgiven f hf)).1
      omega
    · obtain ⟨f, hf, rfl⟩ := List.mem_map.1 (hrequired hname)
      have homissible := hgiven f hf
      rw [hmissing] at homissible
      exact homit f hf hname homissible
  | array items =>
    intro horder
    rcases h with hlong | ⟨name, hname, hend⟩
    · have hlength := horder.length_le
      rw [List.length_map] at hlong
      omega
    · rw [← List.map_drop] at hend
      obtain ⟨f, hf, rfl⟩ := List.mem_map.1 hend
      exact homit f (List.mem_of_mem_drop hf) hname (horder.omissible f hf)

/-- A reader of records accepts exactly the presentations of its result, and nothing malformed. -/
structure Decodes {α : Type} (read? : Json → Option α) (names required : List String)
    (fields : α → List Field) : Prop where
  reads : Reads read? fun x => PresentedBy (fields x)
  rejects : ∀ j, Malformed names required j → read? j = none

theorem Decodes.of_record {α : Type} {read? : Json → Option α} {names required : List String}
    {fields : α → List Field} (hnames : names.Nodup) (hrequired : required ⊆ names)
    (hfields : ∀ x, (fields x).map Field.name = names)
    (homit : ∀ x, ∀ f ∈ fields x, f.name ∈ required → ¬ f.Omissible)
    (hread : ∀ x j, read? j = some x ↔ ∃ r, Record.ofJson? names j = some r ∧
      ∀ f ∈ fields x, f.GivenBy (r.get? f.name).toList) :
    Decodes read? names required fields := by
  have hreads : Reads read? fun x => PresentedBy (fields x) :=
    fun x j => (hread x j).trans (exists_record_iff (hfields x) hnames j)
  refine ⟨hreads, fun j hj => ?_⟩
  cases hresult : read? j with
  | none => rfl
  | some x =>
    exact absurd ((hreads x j).1 hresult)
      (not_presentedBy_of_malformed (hfields x) hrequired (homit x) hj)

end WasmTyping.Form
