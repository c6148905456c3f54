/-!
# Features

Proposals that gate operators, block types and memories, and sets of them.
-/

namespace WasmTyping

inductive Feature where
  | multiValue
  | signExtension
  | saturatingFloatToInt
  | memory64
  | multiMemory
deriving DecidableEq

namespace Feature

def all : List Feature :=
  [.multiValue, .signExtension, .saturatingFloatToInt, .memory64, .multiMemory]

def name : Feature → String
  | .multiValue => "multi-value"
  | .signExtension => "sign-extension"
  | .saturatingFloatToInt => "saturating-float-to-int"
  | .memory64 => "memory64"
  | .multiMemory => "multi-memory"

def bit : Feature → Nat
  | .multiValue => 1
  | .signExtension => 2
  | .saturatingFloatToInt => 4
  | .memory64 => 8
  | .multiMemory => 16

def standard : Feature → Bool
  | .multiValue | .signExtension | .saturatingFloatToInt => true
  | .memory64 | .multiMemory => false

end Feature

structure FeatureSet where
  multiValue : Bool
  signExtension : Bool
  saturatingFloatToInt : Bool
  memory64 : Bool
  multiMemory : Bool
deriving DecidableEq

namespace FeatureSet

def contains (s : FeatureSet) : Feature → Bool
  | .multiValue => s.multiValue
  | .signExtension => s.signExtension
  | .saturatingFloatToInt => s.saturatingFloatToInt
  | .memory64 => s.memory64
  | .multiMemory => s.multiMemory

def ofPredicate (p : Feature → Bool) : FeatureSet :=
  ⟨p .multiValue, p .signExtension, p .saturatingFloatToInt, p .memory64, p .multiMemory⟩

def standard : FeatureSet := ofPredicate Feature.standard

def set (s : FeatureSet) (f : Feature) (on : Bool) : FeatureSet :=
  ofPredicate fun g => if g = f then on else s.contains g

def setAll (on : Bool) : FeatureSet := ofPredicate fun _ => on

def enabled (s : FeatureSet) : List Feature := Feature.all.filter s.contains

def bits (s : FeatureSet) : Nat := s.enabled.foldr (fun f n => f.bit + n) 0

/-- The name of the only feature of a set; a set of any other size has no name of its own. -/
def name (s : FeatureSet) : String :=
  match s.enabled with
  | [f] => f.name
  | _ => "unknown"

@[simp]
theorem contains_ofPredicate (p : Feature → Bool) (f : Feature) :
    (ofPredicate p).contains f = p f := by
  cases f <;> rfl

theorem contains_set (s : FeatureSet) (f g : Feature) (on : Bool) :
    (s.set f on).contains g = if g = f then on else s.contains g := by
  simp [set]

@[ext]
theorem ext_contains {s t : FeatureSet} (h : ∀ f, s.contains f = t.contains f) : s = t := by
  obtain ⟨a, b, c, d, e⟩ := s
  obtain ⟨a', b', c', d', e'⟩ := t
  have h1 := h .multiValue
  have h2 := h .signExtension
  have h3 := h .saturatingFloatToInt
  have h4 := h .memory64
  have h5 := h .multiMemory
  simp only [contains] at h1 h2 h3 h4 h5
  simp [*]

end FeatureSet

end WasmTyping
