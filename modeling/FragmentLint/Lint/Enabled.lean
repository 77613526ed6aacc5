import FragmentLint.Rule.Basic
import FragmentLint.Rule.Options

/-!
# Which rules run

A configuration maps names of rules to their options. The first of a rule's names that it
holds counts. The options are a mapping, or one of three words: nothing and true stand for
the default options, and false turns the rule off. Everything is read before any rule
runs, so the first fault is the only outcome.
-/

namespace FragmentLint

namespace Rule

/-- What a configuration holds for a rule: the value of the first of its names. -/
def setting (r : Rule) (config : Json.Members) : Json :=
  (r.names.toList.findSome? config.get?).getD .null

/-- The options under which a rule runs, if it does. -/
def options? (r : Rule) (config : Json.Members) : Except ConfigFault (Option Options) :=
  match r.setting config with
  | .null | .bool true => .ok (some {})
  | .bool false => .ok none
  | .obj members => (Options.ofMembers members).map some
  | value => .error (.options r.name value)

/-- The rules that a configuration lets run, each with its options. -/
def enabled (config : Json.Members) : List Rule → Except ConfigFault (List (Rule × Options))
  | [] => .ok []
  | r :: rules => do
    let options ← r.options? config
    let others ← enabled config rules
    return (options.map fun o => (r, o)).toList ++ others

end Rule

end FragmentLint
