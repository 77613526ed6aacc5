import FragmentLint.Family

/-!
# Rules

A rule checks the fragments of one family. It has a name, by which findings are reported,
and perhaps aliases, by which it can be configured and chosen as well.
-/

namespace FragmentLint

structure RuleNames where
  /-- The name under which findings are reported. -/
  primary : Text
  aliases : List Text
  deriving DecidableEq, Repr

namespace RuleNames

def toList (n : RuleNames) : List Text :=
  n.primary :: n.aliases

/-- The names in a list, if there are any. -/
def ofList? : List Text → Option RuleNames
  | [] => none
  | primary :: aliases => some ⟨primary, aliases⟩

@[simp] theorem ofList?_toList (n : RuleNames) : ofList? n.toList = some n := rfl

end RuleNames

structure Rule where
  names : RuleNames
  /-- What the rule asks for. -/
  description : Text
  tags : List Text
  /-- The family whose fragments the rule checks. -/
  family : Family
  /-- The tokenizer whose tokens the rule reads. -/
  parser : Text
  /-- Whether the rule has its fragments checked side by side. -/
  concurrent : Bool
  /-- Whether the rule holds a session that has to be closed. -/
  closes : Bool
  deriving DecidableEq, Repr

namespace Rule

def name (r : Rule) : Text :=
  r.names.primary

def diagrams : Rule :=
  { names := ⟨"mermaid-syntax", []⟩
    description := "Mermaid diagram syntax should be valid"
    tags := ["mermaid-diagram", "code"]
    family := .mermaid
    parser := "markdownit"
    concurrent := true
    closes := true }

def formulas : Rule :=
  { names := ⟨"katex-syntax", ["math-syntax"]⟩
    description := "KaTeX/LaTeX math syntax should be valid"
    tags := ["math", "katex", "latex", "code"]
    family := .math
    parser := "markdownit"
    concurrent := false
    closes := false }

def all : List Rule := [diagrams, formulas]

end Rule

end FragmentLint
