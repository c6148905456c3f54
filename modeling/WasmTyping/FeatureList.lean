import WasmTyping.Feature
import WasmTyping.Text.Blank

/-!
# Feature lists

A feature list is a text such as `all,-memory64`. Its parts are divided by commas and read from
left to right, starting from the standard set; a leading minus switches off.
-/

namespace WasmTyping

inductive FeatureList.Subject where
  | all
  | one (feature : Feature)
deriving DecidableEq

structure FeatureList.Part where
  subject : FeatureList.Subject
  on : Bool
deriving DecidableEq

structure FeatureList.UnknownName where
  name : String
deriving DecidableEq

namespace FeatureList

def UnknownName.message (u : UnknownName) : String :=
  "unknown feature `" ++ u.name ++ "`\nValid features: " ++
    ", ".intercalate (Feature.all.map Feature.name)

def Subject.ofName? (name : List Char) : Option Subject :=
  if name = "all".toList then some .all
  else (Feature.all.find? fun f => decide (name = f.name.toList)).map .one

def pieces (text : String) : List (List Char) :=
  ((text.toList.splitOn ',').map Text.trim).filter (· ≠ [])

/-- Reads the sign and the name of one part. The name is not trimmed again. -/
def Part.ofPiece (piece : List Char) : Except UnknownName Part :=
  let (on, name) := match piece with
    | '-' :: name => (false, name)
    | name => (true, name)
  match Subject.ofName? name with
  | some subject => .ok ⟨subject, on⟩
  | none => .error ⟨String.ofList name⟩

def Part.apply (p : Part) (s : FeatureSet) : FeatureSet :=
  match p.subject with
  | .all => FeatureSet.setAll p.on
  | .one f => s.set f p.on

def applyPieces (s : FeatureSet) : List (List Char) → Except UnknownName FeatureSet
  | [] => .ok s
  | piece :: rest =>
    match Part.ofPiece piece with
    | .ok part => applyPieces (part.apply s) rest
    | .error e => .error e

def parse (text : String) : Except UnknownName FeatureSet :=
  applyPieces .standard (pieces text)

end FeatureList

end WasmTyping
