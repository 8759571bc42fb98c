import EffectFusion.Text.Quoted

/-!
# What can go wrong

One type for the failures of a fusion.  Each constructor names its cause; `FusionError.message`
is the one place that words them.
-/

namespace EffectFusion

/-- why a configuration, a module, a policy or an option is refused -/
inductive Defect
  | noLevels
  | coefficientRange (level : UInt8) (field : String)
  | repeatedLevel (level : UInt8)
  | levelUncovered (id : String) (level highest : UInt8)
  | blankId
  | levelZero (id : String)
  | weightRange (id field : String)
  | repeatedId (id : String)
  | optionNotFinite (field value : String)
  | other (text : String)
  deriving DecidableEq, Repr

/-- why no code could be made -/
inductive Failure
  | notFinite (field : String)
  | passGrew (pass : String) (before after : Nat)
  | other (text : String)
  deriving DecidableEq, Repr

/-- what a moderator changed that it may not change -/
inductive Breach
  | moduleList (before after : List String)
  | specialization (id before after : String)
  | algorithm (id before after : String)
  | strategy (before after : String)
  | level (before after : UInt8)
  | animation (before after : String)
  | essenceTags
  | other (text : String)
  deriving DecidableEq, Repr

inductive FusionError
  | unknownLevel (level : UInt8) (known : List UInt8)
  | extraction (text : String)
  | reconstruction (cause : Failure)
  | moderation (breach : Breach)
  | validation (defect : Defect)
  | duplicateId (id : String)
  /-- the text of a configuration is no such data -/
  | malformed (text : String)
  /-- a file could not be read -/
  | file (text cause : String)
  /-- a bound of an interval below which nothing lies -/
  | emptyInterval
  deriving DecidableEq, Repr

def Defect.message : Defect → String
  | .noLevels => "level policy table must contain at least one level"
  | .coefficientRange level field =>
    "level " ++ toString level.toNat ++ " " ++ field ++ " must be finite and within [0, 1]"
  | .repeatedLevel level => "duplicate level policy for level " ++ toString level.toNat
  | .levelUncovered id level highest =>
    "module '" ++ id ++ "' has level " ++ toString level.toNat
      ++ " but the highest configured level is " ++ toString highest.toNat
  | .blankId => "module id must be non-empty"
  | .levelZero id => "module '" ++ id ++ "' level must be >= 1"
  | .weightRange id field =>
    "module '" ++ id ++ "' " ++ field ++ " must be finite and within [0, 1]"
  | .repeatedId id => "duplicate module id '" ++ id ++ "'"
  | .optionNotFinite field value =>
    "fusion option " ++ field ++ " must be finite, got " ++ value
  | .other text => text

def Failure.message : Failure → String
  | .notFinite field => "field '" ++ field ++ "' is not a finite number"
  | .passGrew pass before after =>
    "compression pass '" ++ pass ++ "' grew output from " ++ toString before ++ " to "
      ++ toString after ++ " bytes"
  | .other text => text

def Breach.message : Breach → String
  | .moduleList before after =>
    "module list changed from " ++ Text.quotedList before ++ " to " ++ Text.quotedList after
  | .specialization id before after =>
    "module " ++ id ++ " specialization changed from " ++ before ++ " to " ++ after
  | .algorithm id before after =>
    "module " ++ id ++ " fusion algorithm changed from " ++ before ++ " to " ++ after
  | .strategy before after => "strategy changed from " ++ before ++ " to " ++ after
  | .level before after =>
    "reconstruction level changed from " ++ toString before.toNat ++ " to "
      ++ toString after.toNat
  | .animation before after => "animation type changed from " ++ before ++ " to " ++ after
  | .essenceTags => "essence tags changed; only numeric fields may be moderated"
  | .other text => text

def levelList (levels : List UInt8) : String :=
  Text.bracketed (levels.map (fun n => toString n.toNat))

def FusionError.message : FusionError → String
  | .unknownLevel level known =>
    "invalid level " ++ toString level.toNat
      ++ ": no level policy configured (known levels: " ++ levelList known ++ ")"
  | .extraction text => "extraction error: " ++ text
  | .reconstruction cause => "reconstruction error: " ++ cause.message
  | .moderation breach => "moderation contract violation: " ++ breach.message
  | .validation defect => "validation error: " ++ defect.message
  | .duplicateId id => "duplicate fusion id '" ++ id ++ "': already recorded in the history store"
  | .malformed text => "serialization error: " ++ text
  | .file text _ => text
  | .emptyInterval => "the interval to clamp to is empty"

end EffectFusion
