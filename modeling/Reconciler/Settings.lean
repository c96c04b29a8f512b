import Reconciler.Number.Decimal
import Reconciler.Text.Integer
import Reconciler.Value.Members
import Reconciler.Value.Spelled

/-!
# Settings

Each setting has a default. The environment may give it under its name behind a common
start, in any case, and whoever makes the settings may give it a value, which takes
precedence. Values are read leniently: text may spell a number or a truth value, and a whole
number may stand for either.
-/

namespace Reconciler

/-- The settings. -/
structure Settings where
  logLevel : String := "INFO"
  /-- The file with credentials; without one they come from within the cluster. -/
  kubeconfigPath : Option String := none
  kubeContext : Option String := none
  defaultSpace : String := "default"
  /-- The seconds between two checks of readiness. -/
  pollInterval : Double := .finite false (Nat.pow 2 52) (-51)
  /-- The seconds after which a wait ends if no other time is given. -/
  defaultTimeout : Int := 300
  /-- What the server does with the dependents of a deleted object. -/
  propagation : String := "Background"
  /-- Whether objects are deleted though others could not be updated. -/
  deletesOnError : Bool := false
  deriving Inhabited

namespace Settings

/-- The start of the names of settings in the environment, in lower case. -/
def environmentStart : String := "berth_"

/-- The value that the environment gives to a setting. Of several spellings of its name the
last one counts. -/
def fromEnvironment? (environment : List (String × String)) (name : String) : Option String :=
  let wanted := environmentStart ++ name
  (environment.reverse.find? fun entry =>
    String.ofList (entry.1.toList.map Char.toLower) == wanted).map (·.2)

/-! ### Reading values -/

/-- Whether a text consists of characters of ASCII. -/
def isAscii (text : List Char) : Bool := text.all fun c => c.toNat < 128

/-- A text without a fraction of zeros at its end. -/
def withoutZeros (text : List Char) : List Char :=
  let whole := text.takeWhile fun c => c != '.'
  if ((text.drop whole.length).drop 1).all fun c => c == '0' then whole else text

/-- A whole number: any number without a fraction, or text that spells one. -/
def whole? (value : Value) : Option Int :=
  match value with
  | .bool value => some (if value then 1 else 0)
  | .int value => some value
  | .float value => value.toRat?.bind fun number =>
    if number.den = 1 then some number.num else none
  | value => value.asText?.bind fun text =>
    if isAscii text.toList then Text.readInteger (withoutZeros (Text.trim text.toList)) else none

/-- A number, or text that spells one. -/
def number? (value : Value) : Option Double :=
  match value with
  | .bool value => some (if value then Double.nearest false 1 1 else Double.zero)
  | .int value => Double.ofInt? value
  | .float value => some value
  | value => value.asText?.bind fun text =>
    if isAscii text.toList then Double.read text.toList else none

/-- The words for truth. -/
def trueWords : List String := ["1", "on", "t", "true", "y", "yes"]

/-- The words for its opposite. -/
def falseWords : List String := ["0", "off", "f", "false", "n", "no"]

/-- A truth value: one, zero, or a word for it in any case. -/
def truth? (value : Value) : Option Bool :=
  match value.rational? with
  | some number => if number = 1 then some true else if number = 0 then some false else none
  | none => value.asText?.bind fun text =>
    let word := String.ofList (text.toList.map Char.toLower)
    if trueWords.contains word then some true
    else if falseWords.contains word then some false
    else none

/-- A number of seconds between checks: anything but zero and less. -/
def interval? (value : Value) : Option Double :=
  (number? value).bind fun number =>
    match number with
    | .infinite true => none
    | number => match number.toRat? with
      | some seconds => if 0 < seconds then some number else none
      | none => some number

/-! ### Making settings -/

/-- What is given for a setting: a value, or text from the environment. -/
def given? (environment : List (String × String)) (values : Members) (name : String) :
    Option Value :=
  (Members.field? values name).or ((fromEnvironment? environment name).map Value.text)

/-- Read a setting by its name. Without anything given for it the default stays; a value that
cannot be read adds the name to those refused. -/
def field (environment : List (String × String)) (values : Members) (name : String)
    (read : Value → Option α) (default : α) (refused : List String) : α × List String :=
  match given? environment values name with
  | none => (default, refused)
  | some value =>
    match read value with
    | some setting => (setting, refused)
    | none => (default, refused ++ [name])

/-- Settings from the environment and from values, or the names of the settings whose values
are refused, in order. -/
def make (environment : List (String × String)) (values : Members) :
    Except (List String) Settings :=
  let read {α : Type} := @field α environment values
  let (defaultSpace, refused) := read "default_namespace" Value.asText? "default" []
  let (defaultTimeout, refused) := read "default_timeout_seconds" whole? 300 refused
  let (deletesOnError, refused) := read "delete_on_update_error" truth? false refused
  let (propagation, refused) := read "delete_propagation_policy" Value.asText? "Background" refused
  let (kubeContext, refused) := read "kube_context" Value.asOptionalText? none refused
  let (kubeconfigPath, refused) := read "kubeconfig_path" Value.asOptionalText? none refused
  let (logLevel, refused) := read "log_level" Value.asText? "INFO" refused
  let (pollInterval, refused) :=
    read "poll_interval_seconds" interval? ({} : Settings).pollInterval refused
  if refused.isEmpty then
    .ok { logLevel, kubeconfigPath, kubeContext, defaultSpace, pollInterval, defaultTimeout,
          propagation, deletesOnError }
  else .error refused

/-! ### Logging -/

/-- How lines of the log are made. -/
def logFormat : String := "%(asctime)s - %(name)s - %(levelname)s - %(message)s"

/-- A character in upper case, as one or two characters. -/
def upper (c : Char) : List Char :=
  if c == 'ß' then ['S', 'S']
  else if c == 'ÿ' then ['Ÿ']
  else if 'à' ≤ c && c ≤ 'þ' && c != '÷' then [Char.ofNat (c.toNat - 32)]
  else [c.toUpper]

/-- The name of a level of the log; names are in upper case. -/
def levelName (level : String) : String := String.ofList (level.toList.flatMap upper)

end Settings

end Reconciler
