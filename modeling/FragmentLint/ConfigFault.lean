import FragmentLint.Json.Literal

/-!
# Faults of a configuration

Options of rules and settings of the bridges come from outside. Each fault names the
option or setting and shows the value that was found for it.
-/

namespace FragmentLint

/-- What is wrong with a configuration. -/
inductive ConfigFault where
  /-- An option of a rule that is neither true nor false. -/
  | option (name : Text) (value : Json)
  /-- The options of a rule as a whole. -/
  | options (rule : Text) (value : Json)
  /-- An empty name of the program to run. -/
  | emptyExecutable
  /-- A limit of time that is not positive. -/
  | timeout (value : Number)
  /-- A limit of time that is no number. -/
  | timeoutText (text : Text)
  deriving Inhabited

namespace ConfigFault

def message : ConfigFault → Text
  | .option name value =>
    "Rule option " ++ Text.quoted name ++ " must be true or false, got " ++ value.literal
  | .options rule value =>
    "Options for rule " ++ Text.quoted rule ++ " must be a mapping or boolean, got " ++
      value.literal
  | .emptyExecutable => "NodeSettings.executable must not be empty"
  | .timeout value => "NodeSettings.startup_timeout must be positive, got " ++ value.text
  | .timeoutText text => "FENCELINT_NODE_TIMEOUT must be a number, got " ++ Text.quoted text

end ConfigFault

end FragmentLint
