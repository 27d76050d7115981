import Evidence.Value.Comparison

namespace Evidence

namespace Fault

inductive Code where
  | invalidMass
  | unnormalizedMass
  | invalidFocalSet
  | frameMismatch
  | totalConflict
  | normalizationDrift
  | emptyEvidenceSet
  deriving DecidableEq

def Code.text : Code → String
  | invalidMass => "InvalidMass"
  | unnormalizedMass => "UnnormalizedMass"
  | invalidFocalSet => "InvalidFocalSet"
  | frameMismatch => "FrameMismatch"
  | totalConflict => "TotalConflict"
  | normalizationDrift => "NormalizationDrift"
  | emptyEvidenceSet => "EmptyEvidenceSet"

end Fault

/-- The causes. `stated` is a fault that a caller words, without a cause known to the library. -/
inductive Fault (α : Type) where
  | notNatural (got : Quantity α)
  | looseName (name : String)
  | reservedName (name : String)
  | notHypothesis (got : Value α)
  | sharedText (first second : Hypothesis)
  | noHypotheses
  | ignoranceWithoutFrame
  | outsideFrame (got : Value α) (frame : Frame)
  | unknownToken (label token : String) (frame : Frame)
  | maskOutside (mask : Mask) (frame : Frame)
  | massOutOfRange (name : String) (mass : Value α)
  | massOnEmpty (name : String) (mass : α)
  | repeatedSet (event : Event)
  | noEntries (epsilon : α)
  | unnormalized (total epsilon : α) (frame : Frame)
  | eventsOfFrames (left right : Frame)
  | sourcesOfFrames (first other : Frame) (index : Option Nat)
  | totalConflict (conflict : Quantity α)
  | normalizationDrift (total threshold : Value α)
  | noSources
  | stated (code : Fault.Code) (message : String) (details : List (String × Value α))

namespace Fault

variable {α : Type}

def code : Fault α → Code
  | massOutOfRange .. => .invalidMass
  | noEntries .. | unnormalized .. => .unnormalizedMass
  | eventsOfFrames .. | sourcesOfFrames .. => .frameMismatch
  | totalConflict .. => .totalConflict
  | normalizationDrift .. => .normalizationDrift
  | noSources => .emptyEvidenceSet
  | stated code .. => code
  | _ => .invalidFocalSet

variable [Scalar α]

def drift (total : Value α) : Quantity α := total.amount.distanceFrom 1

def eventsText (left right : String) : String :=
  "Focal sets belong to different frames: " ++ left ++ " vs " ++ right

def sourcesText (first other : String) : String :=
  "Incompatible frames of discernment: " ++ first ++ " vs " ++ other

def totalText (total epsilon : α) (frame : String) : String :=
  "Masses sum to " ++ (Quantity.finite total).text ++ ", must sum to 1.0 (±" ++
    (Quantity.finite epsilon).text ++ ") in frame " ++ frame

def message : Fault α → String
  | notNatural got => "Numeric hypotheses must be non-negative integers, got: " ++ got.text
  | looseName name =>
      "Hypothesis labels must be non-empty and carry no surrounding whitespace, got: '" ++ name ++
        "'"
  | reservedName name => "Hypothesis label '" ++ name ++ "' is reserved"
  | notHypothesis got => "Hypotheses must be strings or integers, got: " ++ got.broadKind
  | sharedText first second =>
      "Hypotheses " ++ first.json ++ " and " ++ second.json ++ " share the label '" ++
        second.text ++ "'"
  | noHypotheses => "A frame of discernment must contain at least one hypothesis"
  | ignoranceWithoutFrame => "Label '" ++ Label.ignorance ++ "' needs an explicit frame"
  | outsideFrame got frame => "Hypothesis " ++ got.json ++ " is not in frame " ++ frame.text
  | unknownToken label token frame =>
      "Label '" ++ label ++ "' names '" ++ token ++ "', which is not in frame " ++ frame.text
  | maskOutside mask frame => "Mask " ++ mask.text ++ " is outside frame " ++ frame.text
  | massOutOfRange name mass =>
      "Mass " ++ mass.plainText ++ " for " ++ name ++ " out of range [0, 1]"
  | massOnEmpty _ mass =>
      "The empty set must carry zero mass, got: " ++ (Quantity.finite mass).text
  | repeatedSet event => "Focal set " ++ event.text ++ " is assigned more than once"
  | noEntries _ => "Masses sum to 0, must sum to 1.0"
  | unnormalized total epsilon frame => totalText total epsilon frame.text
  | eventsOfFrames left right => eventsText left.text right.text
  | sourcesOfFrames first other _ => sourcesText first.text other.text
  | totalConflict conflict =>
      "Total conflict (K=" ++ conflict.word.fixed 4 ++ "); Dempster's rule is undefined. " ++
        "Consider Yager or Dubois-Prade instead."
  | normalizationDrift total threshold =>
      "Combined masses sum to " ++ total.plainText ++ ", drift " ++
        (drift total).word.scientific 3 ++ " exceeds " ++ threshold.plainText
  | noSources => "Cannot fuse an empty list of belief masses"
  | stated _ message _ => message

def details : Fault α → List (String × Value α)
  | outsideFrame got _ => [("hypothesis", got)]
  | unknownToken label _ _ => [("label", .text label)]
  | massOutOfRange name mass => [("focalSet", .text name), ("mass", mass)]
  | massOnEmpty name mass => [("focalSet", .text name), ("mass", .finite mass)]
  | repeatedSet event => [("focalSet", .text event.label)]
  | noEntries epsilon => [("total", .finite 0), ("epsilon", .finite epsilon)]
  | unnormalized total epsilon _ => [("total", .finite total), ("epsilon", .finite epsilon)]
  | sourcesOfFrames _ _ (some index) => [("index", .ofNat index)]
  | totalConflict conflict => [("conflict", .number conflict)]
  | normalizationDrift total threshold =>
      [("total", total), ("drift", .number (drift total)), ("threshold", threshold)]
  | stated _ _ details => details
  | _ => []

end Fault

end Evidence
