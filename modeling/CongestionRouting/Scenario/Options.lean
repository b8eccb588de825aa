import CongestionRouting.Scenario

namespace CongestionRouting.Scenario

inductive OptionName where
  | steps
  | delivery
  | degradeAt
  | recoverAt
  | threshold
  | randomized
  | traffic
  | seed
  deriving DecidableEq

inductive UsageError where
  | unexpected (argument : String)
  | repeated (name : OptionName)
  | missingValue (name : OptionName)
  | invalidValue (name : OptionName) (value : String)
  deriving DecidableEq

namespace OptionName

def all : List OptionName :=
  [.steps, .delivery, .degradeAt, .recoverAt, .threshold, .randomized, .traffic, .seed]

def text : OptionName → String
  | .steps => "--steps"
  | .delivery => "--delivery"
  | .degradeAt => "--degrade-at"
  | .recoverAt => "--recover-at"
  | .threshold => "--threshold"
  | .randomized => "--randomized"
  | .traffic => "--traffic"
  | .seed => "--seed"

instance : ToString OptionName := ⟨text⟩

end OptionName

namespace UsageError

def message : UsageError → String
  | .unexpected argument => s!"unexpected argument {argument}"
  | .repeated name => s!"{name} is given more than once"
  | .missingValue name => s!"{name} needs a value"
  | .invalidValue name value => s!"{value} is no value of {name}"

end UsageError

def splitArgument (argument : String) : Option (OptionName × Option String) :=
  let cs := argument.toList
  let name := String.ofList (cs.takeWhile (· ≠ '='))
  let value := match cs.dropWhile (· ≠ '=') with
    | [] => none
    | _ :: value => some (String.ofList value)
  (OptionName.all.find? fun o => o.text = name).map (·, value)

/-- The number of packets that a text denotes. The sign is read before the range is looked at, so a
minus sign in front of zeros is no fault. -/
def readTraffic (cs : List Char) : Option UInt32 :=
  match cs with
  | '-' :: digits => if digits ≠ [] ∧ digits.all (· = '0') then some 0 else none
  | cs => (Text.readUInt32 cs).toOption

def setOption (s : Scenario) (name : OptionName) (value : String) : Option Scenario :=
  let number := (Text.readUInt64 value.toList).toOption
  match name with
  | .steps => number.map fun v => { s with steps := v }
  | .delivery => (Delivery.parse value).toOption.map fun v => { s with delivery := v }
  | .degradeAt => number.map fun v => { s with degradeAt := v }
  | .recoverAt => number.map fun v => { s with recoverAt := v }
  | .threshold => (ThresholdRatio.parse value).toOption.map fun v => { s with threshold := v }
  | .randomized => none
  | .traffic => (readTraffic value.toList).map fun v => { s with traffic := v }
  | .seed => number.map fun v => { s with seed := v }

def readValue (s : Scenario) (name : OptionName) (value : String) : Except UsageError Scenario :=
  match s.setOption name value with
  | some s => .ok s
  | none => .error (.invalidValue name value)

/-- Applies the arguments from the left; `given` holds the options that came before. An argument
that begins with a dash is never the value of the option in front of it; behind an equals sign any
text may be one. -/
def readArguments (given : List OptionName) (s : Scenario) :
    List String → Except UsageError Scenario
  | [] => .ok s
  | argument :: rest =>
    if argument = "--" then
      match rest.head? with
      | some extra => .error (.unexpected extra)
      | none => .ok s
    else
      match splitArgument argument with
      | none => .error (.unexpected argument)
      | some (name, value) =>
        if name ∈ given then .error (.repeated name)
        else
          match name, value, rest with
          | .randomized, none, rest =>
            readArguments (name :: given) { s with randomized := true } rest
          | name, some value, rest => do
            readArguments (name :: given) (← s.readValue name value) rest
          | name, none, value :: rest =>
            if value.toList.head? = some '-' then .error (.missingValue name)
            else do readArguments (name :: given) (← s.readValue name value) rest
          | name, none, [] => .error (.missingValue name)

def ofArguments (arguments : List String) : Except UsageError Scenario :=
  readArguments [] standard arguments

end CongestionRouting.Scenario
