import Mathlib.Data.List.Forall2
import Mathlib.Data.List.TakeWhile
import WasmTyping.FeatureList

/-!
# What a feature list says

A list is divided at its commas, the blanks around its parts are taken off, and empty parts are left
out. Each part that remains mentions one feature or all of them. A list is refused for the first name
that is not known. Otherwise a feature is what the last part that mentions it says, and one that no
part mentions is as it is by default. So a list behind another one overrides it feature by feature.
-/

namespace WasmTyping

namespace Text

structure Trims (cs inner : List Char) : Prop where
  around : ∃ before after, cs = before ++ (inner ++ after) ∧
    (∀ c ∈ before, isBlank c = true) ∧ ∀ c ∈ after, isBlank c = true
  head : ∀ c ∈ inner.head?, isBlank c = false
  last : ∀ c ∈ inner.getLast?, isBlank c = false

theorem isBlank_head?_dropWhile {cs : List Char} {c : Char} (h : c ∈ (cs.dropWhile isBlank).head?) :
    isBlank c = false := by
  have hnot := List.head?_dropWhile_not isBlank cs
  rwa [Option.mem_def.1 h] at hnot

theorem dropWhile_isBlank {cs : List Char} (h : ∀ c ∈ cs.head?, isBlank c = false) :
    cs.dropWhile isBlank = cs := by
  cases cs with
  | nil => rfl
  | cons c cs => rw [List.dropWhile_cons_of_neg (by simp [h c rfl])]

theorem trims_trim (cs : List Char) : Trims cs (trim cs) := by
  have hfront : cs.takeWhile isBlank ++ cs.dropWhile isBlank = cs := List.takeWhile_append_dropWhile
  generalize hrest : cs.dropWhile isBlank = rest at hfront
  have hback : trim cs ++ (rest.reverse.takeWhile isBlank).reverse = rest := by
    rw [trim, hrest, ← List.reverse_append, List.takeWhile_append_dropWhile, List.reverse_reverse]
  refine ⟨⟨cs.takeWhile isBlank, (rest.reverse.takeWhile isBlank).reverse, ?_, ?_, ?_⟩, ?_, ?_⟩
  · rw [hback, hfront]
  · intro c hc
    exact List.mem_takeWhile_imp hc
  · intro c hc
    exact List.mem_takeWhile_imp (List.mem_reverse.1 hc)
  · intro c hc
    -- What is left begins as the text does once the blanks in front of it are gone.
    apply @isBlank_head?_dropWhile cs
    rw [hrest, ← hback, List.head?_append, Option.mem_def.1 hc]
    rfl
  · intro c hc
    apply @isBlank_head?_dropWhile rest.reverse
    rwa [← List.getLast?_reverse, ← hrest]

theorem Trims.eq_trim {cs inner : List Char} (h : Trims cs inner) : inner = trim cs := by
  obtain ⟨before, after, rfl, hbefore, hafter⟩ := h.around
  rw [trim, List.dropWhile_append_of_pos hbefore]
  cases hinner : inner with
  | nil =>
    have hnone : after.dropWhile isBlank = [] := List.dropWhile_eq_nil_iff.2 hafter
    simp [hnone]
  | cons d ds =>
    have hfront : ∀ c ∈ (inner ++ after).head?, isBlank c = false := by
      have hhead := h.head
      rwa [hinner] at hhead ⊢
    have hback : ∀ c ∈ inner.reverse.head?, isBlank c = false := by
      rw [List.head?_reverse]
      exact h.last
    have hblank : ∀ c ∈ after.reverse, isBlank c = true := by simpa using hafter
    rw [← hinner, dropWhile_isBlank hfront, List.reverse_append,
      List.dropWhile_append_of_pos hblank, dropWhile_isBlank hback, List.reverse_reverse]

theorem trims_iff {cs inner : List Char} : Trims cs inner ↔ inner = trim cs := by
  constructor
  · exact Trims.eq_trim
  · intro h
    rw [h]
    exact trims_trim cs

end Text

namespace FeatureList

structure Mention where
  on : Bool
  name : String
deriving DecidableEq

def Mention.ofPiece : List Char → Mention
  | '-' :: name => ⟨false, String.ofList name⟩
  | name => ⟨true, String.ofList name⟩

def Mention.Known (m : Mention) : Prop := m.name = "all" ∨ ∃ f : Feature, m.name = f.name

def Mention.About (f : Feature) (m : Mention) : Prop := m.name = "all" ∨ m.name = f.name

instance (f : Feature) : DecidablePred (Mention.About f) :=
  fun m => inferInstanceAs (Decidable (m.name = "all" ∨ m.name = f.name))

structure Divides (text : List Char) (segments : List (List Char)) : Prop where
  nonempty : segments ≠ []
  plain : ∀ segment ∈ segments, ',' ∉ segment
  joined : [','].intercalate segments = text

/-- The parts of a list in the order of the text. -/
def ConsistsOf (text : String) (ms : List Mention) : Prop :=
  ∃ segments inner, Divides text.toList segments ∧ List.Forall₂ Text.Trims segments inner ∧
    ms = (inner.filter (· ≠ [])).map Mention.ofPiece

def mentions (text : String) : List Mention := (pieces text).map Mention.ofPiece

def FirstUnknown (ms : List Mention) (m : Mention) : Prop :=
  ∃ before after, ms = before ++ m :: after ∧ (∀ k ∈ before, k.Known) ∧ ¬ m.Known

def LastAbout (f : Feature) (ms : List Mention) (m : Mention) : Prop :=
  ∃ before after, ms = before ++ m :: after ∧ m.About f ∧ ∀ k ∈ after, ¬ k.About f

/-- The sign of the last part that mentions the feature. -/
def lastSign? (f : Feature) : List Mention → Option Bool
  | [] => none
  | m :: rest => (lastSign? f rest).or (if m.About f then some m.on else none)

theorem comma_not_mem {text segment : List Char} (h : segment ∈ text.splitOn ',') :
    ',' ∉ segment := by
  induction text generalizing segment with
  | nil =>
    rw [List.splitOn_nil, List.mem_singleton] at h
    simp [h]
  | cons c text ih =>
    rw [List.splitOn_cons_eq_if_modifyHead] at h
    by_cases hc : c = ','
    · simp only [hc, beq_self_eq_true, if_true, List.mem_cons] at h
      rcases h with rfl | h
      · simp
      · exact ih h
    · rw [if_neg (by simpa using hc)] at h
      cases hrest : text.splitOn ',' with
      | nil => simp [hrest] at h
      | cons first rest =>
        rw [hrest, List.modifyHead_cons, List.mem_cons] at h
        rcases h with rfl | h
        · have hfirst := ih (hrest ▸ List.mem_cons_self)
          simp [Ne.symm hc, hfirst]
        · exact ih (hrest ▸ List.mem_cons_of_mem first h)

theorem divides_iff {text : List Char} {segments : List (List Char)} :
    Divides text segments ↔ segments = text.splitOn ',' := by
  constructor
  · intro h
    rw [← h.joined, List.splitOn_intercalate ',' h.plain h.nonempty]
  · intro h
    rw [h]
    exact ⟨List.splitOn_ne_nil ',' text, fun segment => comma_not_mem, List.intercalate_splitOn ','⟩

theorem forall₂_trims_iff {segments inner : List (List Char)} :
    List.Forall₂ Text.Trims segments inner ↔ inner = segments.map Text.trim := by
  induction segments generalizing inner with
  | nil => simp
  | cons segment segments ih =>
    rw [List.forall₂_cons_left_iff]
    simp only [Text.trims_iff, ih, List.map_cons]
    constructor
    · intro h
      rcases h with ⟨_, _, rfl, rfl, rfl⟩
      rfl
    · intro h
      exact ⟨_, _, rfl, rfl, h⟩

theorem consistsOf_iff {text : String} {ms : List Mention} :
    ConsistsOf text ms ↔ ms = mentions text := by
  simp only [ConsistsOf, divides_iff, forall₂_trims_iff, mentions, pieces]
  constructor
  · intro h
    rcases h with ⟨_, _, rfl, rfl, rfl⟩
    rfl
  · intro h
    exact ⟨_, _, rfl, rfl, h⟩

theorem pieces_append (s t : String) : pieces (s ++ "," ++ t) = pieces s ++ pieces t := by
  have htext : (s ++ "," ++ t).toList = s.toList ++ ',' :: t.toList := by simp
  rw [pieces, htext, List.splitOn_append_cons_self, List.map_append, List.filter_append]
  rfl

def Subject.name : Subject → String
  | .all => "all"
  | .one f => f.name

theorem eq_toList_iff {name : List Char} {text : String} :
    name = text.toList ↔ String.ofList name = text := by
  constructor
  · intro h
    rw [h, String.ofList_toList]
  · intro h
    rw [← h, String.toList_ofList]

theorem find?_name_iff {name : List Char} {f : Feature} :
    (Feature.all.find? fun g => decide (name = g.name.toList)) = some f ↔
      name = f.name.toList := by
  constructor
  · intro h
    simpa using List.find?_some h
  · intro h
    rw [h]
    cases f <;> decide +kernel

theorem Subject.ofName?_eq_some_iff {name : List Char} {subject : Subject} :
    ofName? name = some subject ↔ String.ofList name = subject.name := by
  rw [← eq_toList_iff, ofName?]
  by_cases hall : name = "all".toList
  · rw [if_pos hall, hall]
    cases subject with
    | all => exact iff_of_true rfl rfl
    | one f =>
      refine iff_of_false (by simp) ?_
      cases f <;> decide +kernel
  · rw [if_neg hall, Option.map_eq_some_iff]
    cases subject with
    | all => exact iff_of_false (by simp) hall
    | one f => simp [find?_name_iff, Subject.name]

theorem Subject.name_injective {a b : Subject} (h : a.name = b.name) : a = b := by
  have ha : ofName? a.name.toList = some a := ofName?_eq_some_iff.2 String.ofList_toList
  rw [h, ofName?_eq_some_iff.2 String.ofList_toList] at ha
  exact (Option.some.inj ha).symm

section Parts

variable {m : Mention} {f : Feature} {subject : Subject} {s s' : FeatureSet}

theorem Mention.known_iff : m.Known ↔ ∃ subject : Subject, m.name = subject.name := by
  constructor
  · intro h
    rcases h with hall | ⟨f, hf⟩
    · exact ⟨.all, hall⟩
    · exact ⟨.one f, hf⟩
  · intro hsome
    rcases hsome with ⟨subject, h⟩
    cases subject with
    | all => exact .inl h
    | one f => exact .inr ⟨f, h⟩

theorem Mention.about_iff (h : m.name = subject.name) :
    m.About f ↔ subject = .all ∨ subject = .one f := by
  have hname (other : Subject) : m.name = other.name ↔ subject = other := by
    rw [h]
    exact ⟨Subject.name_injective, congrArg Subject.name⟩
  exact or_congr (hname .all) (hname (.one f))

theorem Part.ofPiece_cases (piece : List Char) :
    (∃ subject : Subject, (Mention.ofPiece piece).name = subject.name ∧
      ofPiece piece = .ok ⟨subject, (Mention.ofPiece piece).on⟩) ∨
    ¬ (Mention.ofPiece piece).Known ∧ ofPiece piece = .error ⟨(Mention.ofPiece piece).name⟩ := by
  rw [Mention.known_iff]
  unfold ofPiece
  split
  next on name hpiece =>
    have hmention : Mention.ofPiece piece = ⟨on, String.ofList name⟩ := by
      unfold Mention.ofPiece
      split at hpiece <;> simp_all
    simp only [hmention, ← Subject.ofName?_eq_some_iff]
    cases hname : Subject.ofName? name with
    | some subject => exact .inl ⟨subject, rfl, rfl⟩
    | none => exact .inr ⟨by simp, rfl⟩

theorem Part.contains_apply (p : Part) (s : FeatureSet) (f : Feature) :
    (p.apply s).contains f =
      if p.subject = .all ∨ p.subject = .one f then p.on else s.contains f := by
  obtain ⟨subject, on⟩ := p
  cases subject with
  | all => simp [apply, FeatureSet.setAll]
  | one g => simp [apply, FeatureSet.contains_set, eq_comm]

theorem applyPieces_append (s : FeatureSet) (first second : List (List Char)) :
    applyPieces s (first ++ second) =
      (applyPieces s first).bind fun s' => applyPieces s' second := by
  induction first generalizing s with
  | nil => rfl
  | cons piece rest ih =>
    rw [List.cons_append, applyPieces, applyPieces]
    cases Part.ofPiece piece with
    | error e => rfl
    | ok part => exact ih _

theorem contains_of_applyPieces {ps : List (List Char)} (h : applyPieces s ps = .ok s')
    (f : Feature) :
    s'.contains f = (lastSign? f (ps.map Mention.ofPiece)).getD (s.contains f) := by
  induction ps generalizing s with
  | nil =>
    cases h
    rfl
  | cons piece rest ih =>
    rw [applyPieces] at h
    rcases Part.ofPiece_cases piece with ⟨subject, hname, hpart⟩ | ⟨-, hpart⟩
    · rw [hpart] at h
      rw [ih h, Part.contains_apply, List.map_cons, lastSign?]
      cases lastSign? f (rest.map Mention.ofPiece) with
      | some on => rfl
      | none =>
        by_cases habout : (Mention.ofPiece piece).About f
        · simp [habout, (Mention.about_iff hname).1 habout]
        · simp [habout, mt (Mention.about_iff hname).2 habout]
    · rw [hpart] at h
      cases h

end Parts

section Lists

variable {ms : List Mention} {m k : Mention} {f : Feature}

theorem firstUnknown_cons :
    FirstUnknown (k :: ms) m ↔ ¬ k.Known ∧ m = k ∨ k.Known ∧ FirstUnknown ms m := by
  constructor
  · intro h
    rcases h with ⟨before, after, hsplit, hbefore, hm⟩
    cases before with
    | nil =>
      obtain ⟨rfl, rfl⟩ := List.cons.inj hsplit
      exact .inl ⟨hm, rfl⟩
    | cons first before =>
      obtain ⟨rfl, rfl⟩ := List.cons.inj hsplit
      obtain ⟨hfirst, hbefore⟩ := List.forall_mem_cons.1 hbefore
      exact .inr ⟨hfirst, before, after, rfl, hbefore, hm⟩
  · intro h
    rcases h with ⟨hk, rfl⟩ | ⟨hk, before, after, rfl, hbefore, hm⟩
    · exact ⟨[], ms, rfl, by simp, hk⟩
    · exact ⟨k :: before, after, rfl, List.forall_mem_cons.2 ⟨hk, hbefore⟩, hm⟩

theorem exists_firstUnknown_iff : (∃ m, FirstUnknown ms m) ↔ ∃ m ∈ ms, ¬ m.Known := by
  constructor
  · intro h
    rcases h with ⟨m, before, after, rfl, -, hm⟩
    exact ⟨m, by simp, hm⟩
  · intro h
    induction ms with
    | nil => simp at h
    | cons k ms ih =>
      by_cases hk : k.Known
      · obtain ⟨m, hm⟩ := ih (by simpa [hk] using h)
        exact ⟨m, firstUnknown_cons.2 (.inr ⟨hk, hm⟩)⟩
      · exact ⟨k, firstUnknown_cons.2 (.inl ⟨hk, rfl⟩)⟩

theorem applyPieces_eq_error_iff {s : FeatureSet} {ps : List (List Char)} {e : UnknownName} :
    applyPieces s ps = .error e ↔
      ∃ m, FirstUnknown (ps.map Mention.ofPiece) m ∧ e = ⟨m.name⟩ := by
  induction ps generalizing s with
  | nil => simp [applyPieces, FirstUnknown]
  | cons piece rest ih =>
    rw [applyPieces, List.map_cons]
    simp only [firstUnknown_cons]
    rcases Part.ofPiece_cases piece with ⟨subject, hname, hpart⟩ | ⟨hunknown, hpart⟩
    · have hknown := Mention.known_iff.2 ⟨subject, hname⟩
      simp [hpart, hknown, ih]
    · simp [hpart, hunknown, eq_comm]

theorem lastSign?_append (f : Feature) (first second : List Mention) :
    lastSign? f (first ++ second) = (lastSign? f second).or (lastSign? f first) := by
  induction first with
  | nil => simp [lastSign?]
  | cons m first ih => rw [List.cons_append, lastSign?, lastSign?, ih, Option.or_assoc]

theorem lastSign?_eq_none_iff : lastSign? f ms = none ↔ ∀ k ∈ ms, ¬ k.About f := by
  induction ms with
  | nil => simp [lastSign?]
  | cons m ms ih =>
    rw [lastSign?, Option.or_eq_none_iff, ih, List.forall_mem_cons, and_comm]
    simp

theorem lastSign?_eq_some_iff {on : Bool} :
    lastSign? f ms = some on ↔ ∃ m, LastAbout f ms m ∧ m.on = on := by
  constructor
  · intro h
    induction ms with
    | nil => cases h
    | cons k ms ih =>
      rw [lastSign?] at h
      cases hrest : lastSign? f ms with
      | some other =>
        rw [hrest] at h
        obtain ⟨m, ⟨before, after, rfl, hm⟩, hon⟩ := ih (hrest.trans h)
        exact ⟨m, ⟨k :: before, after, rfl, hm⟩, hon⟩
      | none =>
        by_cases hk : k.About f
        · rw [hrest, if_pos hk] at h
          exact ⟨k, ⟨[], ms, rfl, hk, lastSign?_eq_none_iff.1 hrest⟩, Option.some.inj h⟩
        · rw [hrest, if_neg hk] at h
          cases h
  · intro h
    rcases h with ⟨m, ⟨before, after, rfl, hm, hafter⟩, rfl⟩
    rw [lastSign?_append, lastSign?, lastSign?_eq_none_iff.2 hafter, if_pos hm]
    rfl

end Lists

section Parse

variable {s t : String} {a b : FeatureSet} {f : Feature}

theorem parse_eq_error_iff {e : UnknownName} :
    parse s = .error e ↔ ∃ m, FirstUnknown (mentions s) m ∧ e = ⟨m.name⟩ :=
  applyPieces_eq_error_iff

theorem exists_parse_error_iff : (∃ e, parse s = .error e) ↔ ∃ m ∈ mentions s, ¬ m.Known := by
  rw [← exists_firstUnknown_iff]
  simp only [parse_eq_error_iff]
  constructor
  · intro h
    rcases h with ⟨_, m, hm, -⟩
    exact ⟨m, hm⟩
  · intro h
    rcases h with ⟨m, hm⟩
    exact ⟨_, m, hm, rfl⟩

theorem contains_of_parse (h : parse s = .ok a) (f : Feature) :
    a.contains f = (lastSign? f (mentions s)).getD f.standard := by
  rw [contains_of_applyPieces h f, FeatureSet.standard, FeatureSet.contains_ofPredicate]
  rfl

theorem contains_iff_of_parse (h : parse s = .ok a) (f : Feature) :
    a.contains f = true ↔ (∃ m, LastAbout f (mentions s) m ∧ m.on = true) ∨
      (∀ k ∈ mentions s, ¬ k.About f) ∧ f.standard = true := by
  rw [contains_of_parse h, ← lastSign?_eq_some_iff, ← lastSign?_eq_none_iff]
  cases lastSign? f (mentions s) <;> simp

theorem parse_append (hs : parse s = .ok a) (ht : parse t = .ok b) :
    ∃ c, parse (s ++ "," ++ t) = .ok c ∧ ∀ f, c.contains f =
      (lastSign? f (mentions t)).getD (a.contains f) := by
  have hjoined : parse (s ++ "," ++ t) = applyPieces a (pieces t) := by
    rw [parse, pieces_append, applyPieces_append]
    exact congrArg (Except.bind · _) hs
  cases hrest : applyPieces a (pieces t) with
  | ok c => exact ⟨c, hjoined.trans hrest, contains_of_applyPieces hrest⟩
  | error e =>
    -- Whether a name is known does not depend on the set that is begun with.
    rw [applyPieces_eq_error_iff, ← applyPieces_eq_error_iff (s := .standard)] at hrest
    cases hrest.symm.trans ht

theorem parse_repeated (h : parse s = .ok a) : parse (s ++ "," ++ s) = .ok a := by
  obtain ⟨c, hc, hfeatures⟩ := parse_append h h
  have hsame : c = a := by
    ext f
    rw [hfeatures, contains_of_parse h]
    cases lastSign? f (mentions s) <;> rfl
  rw [hc, hsame]

theorem parse_append_agrees (hs : parse s = .ok a) (ht : parse t = .ok b) :
    ∃ c, parse (s ++ "," ++ t) = .ok c ∧ ∀ f,
      ((∃ m ∈ mentions t, m.About f) → c.contains f = b.contains f) ∧
      ((∀ m ∈ mentions t, ¬ m.About f) → c.contains f = a.contains f) := by
  obtain ⟨c, hc, hfeatures⟩ := parse_append hs ht
  refine ⟨c, hc, fun f => ⟨?_, ?_⟩⟩
  · intro hmentioned
    rcases hmentioned with ⟨m, hm, habout⟩
    have hsome : lastSign? f (mentions t) ≠ none := by
      intro hnone
      exact lastSign?_eq_none_iff.1 hnone m hm habout
    obtain ⟨on, hon⟩ := Option.ne_none_iff_exists'.1 hsome
    rw [hfeatures, contains_of_parse ht, hon]
    rfl
  · intro hnone
    rw [hfeatures, lastSign?_eq_none_iff.2 hnone]
    rfl

end Parse

end FeatureList

open FeatureList in
/-- A list consists of the parts between its commas, trimmed and without the empty ones. It is refused
just if one of them has a name that is not known, and then for the first such name. Otherwise a
feature is on just if the last part that mentions it says so, or if no part mentions it and it is on
by default. Hence a list may be repeated, and a list behind another one decides about the features
that it mentions and leaves the others alone. -/
theorem last_mention_decides (s : String) :
    (∀ ms, ConsistsOf s ms ↔ ms = mentions s) ∧
    ((∃ e, parse s = .error e) ↔ ∃ m ∈ mentions s, ¬ m.Known) ∧
    (∀ e, parse s = .error e ↔ ∃ m, FirstUnknown (mentions s) m ∧ e = ⟨m.name⟩) ∧
    ∀ a, parse s = .ok a →
      (∀ f, a.contains f = true ↔ (∃ m, LastAbout f (mentions s) m ∧ m.on = true) ∨
        (∀ m ∈ mentions s, ¬ m.About f) ∧ f.standard = true) ∧
      parse (s ++ "," ++ s) = .ok a ∧
      ∀ t b, parse t = .ok b → ∃ c, parse (s ++ "," ++ t) = .ok c ∧ ∀ f,
        ((∃ m ∈ mentions t, m.About f) → c.contains f = b.contains f) ∧
        ((∀ m ∈ mentions t, ¬ m.About f) → c.contains f = a.contains f) := by
  refine ⟨fun ms => consistsOf_iff, exists_parse_error_iff, fun e => parse_eq_error_iff, ?_⟩
  intro a ha
  refine ⟨contains_iff_of_parse ha, parse_repeated ha, ?_⟩
  intro t b hb
  exact parse_append_agrees ha hb

open FeatureList in
theorem last_mention_decides_takenBack :
    let s := " -all,, memory64\t,multi-memory"
    parse s = .ok ⟨false, false, false, true, true⟩ ∧
      ConsistsOf s [⟨false, "all"⟩, ⟨true, "memory64"⟩, ⟨true, "multi-memory"⟩] ∧
      parse (s ++ "," ++ s) = .ok ⟨false, false, false, true, true⟩ ∧
      (∃ c, parse (s ++ "," ++ "-memory64") = .ok c ∧ c.contains .memory64 = false ∧
        c.contains .multiMemory = true ∧ c.contains .multiValue = false) ∧
      parse "all,- memory64,--all" = .error ⟨" memory64"⟩ := by
  intro s
  have hs : parse s = .ok ⟨false, false, false, true, true⟩ := by decide +kernel
  have ht : parse "-memory64" = .ok ⟨true, true, true, false, false⟩ := by decide +kernel
  obtain ⟨hparts, -, -, hfeatures⟩ := last_mention_decides s
  obtain ⟨-, hagain, hbehind⟩ := hfeatures _ hs
  obtain ⟨c, hc, hagrees⟩ := hbehind "-memory64" _ ht
  have hmentioned : mentions "-memory64" = [⟨false, "memory64"⟩] := by decide +kernel
  rw [hmentioned] at hagrees
  refine ⟨hs, (hparts _).2 (by decide +kernel), hagain, ⟨c, hc, ?_, ?_, ?_⟩, by decide +kernel⟩
  · exact (hagrees .memory64).1 ⟨_, List.mem_singleton_self _, .inr rfl⟩
  · exact (hagrees .multiMemory).2 (by decide +kernel)
  · exact (hagrees .multiValue).2 (by decide +kernel)

end WasmTyping
