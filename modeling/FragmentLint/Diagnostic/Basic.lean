import FragmentLint.Line

/-!
# Diagnostics and findings

A diagnostic says what is wrong with a fragment, in lines of the fragment. A finding says
it in lines of the document. Anchoring a diagnostic at the line where the fragment starts
gives the finding: the first line of the fragment is the line of its carrier.
-/

namespace FragmentLint

/-- A message and its hint as one pair of sentences; without a hint, the message alone. -/
def joinDetail (message : Text) (hint : Option Text) : Text :=
  match hint with
  | some (c :: cs) => message ++ ". " ++ (c :: cs)
  | _ => message

structure Finding where
  line : Line
  message : Text
  hint : Option Text := none
  context : Option Text := none
  code : Option Code := none
  deriving DecidableEq, Repr

namespace Finding

def detail (f : Finding) : Text :=
  joinDetail f.message f.hint

/-- The line of a finding, from outside. -/
def line? (n : Int) : Except ValueFault Line :=
  match Line.ofInt? n with
  | some line => .ok line
  | none => .error (.errorLine n)

end Finding

/-- A failure in lines of the fragment. The message is never empty. -/
structure Diagnostic where
  code : Code
  message : Text
  /-- The line within the fragment, if it is known. -/
  line : Option Line := none
  hint : Option Text := none
  context : Option Text := none
  message_ne_nil : message ≠ [] := by simp
  deriving DecidableEq, Repr

namespace Diagnostic

def detail (d : Diagnostic) : Text :=
  joinDetail d.message d.hint

/-- The line of a diagnostic, from outside. -/
def line? : Option Int → Except ValueFault (Option Line)
  | none => .ok none
  | some n => match Line.ofInt? n with
    | some line => .ok (some line)
    | none => .error (.diagnosticLine n)

/-- The diagnostic with given parts, from outside. An empty message is refused first. -/
def make? (code : Code) (message : Text) (line : Option Int) (hint context : Option Text) :
    Except ValueFault Diagnostic :=
  if h : message = [] then .error (.emptyMessage code)
  else do
    let line ← line? line
    return { code, message, line, hint, context, message_ne_nil := h }

/-- A context, or another one where there is none or an empty one. -/
def orContext (context fallback : Option Text) : Option Text :=
  match context with
  | some (c :: cs) => some (c :: cs)
  | _ => fallback

/-- How far below the start of the fragment a diagnostic points. -/
def depth (d : Diagnostic) : Nat :=
  (d.line.map (·.number - 1)).getD 0

/-- The finding for a diagnostic of a fragment that starts at a given line. -/
def anchor (d : Diagnostic) (start : Line) (fallback : Option Text) : Finding :=
  { line := start.down d.depth, message := d.message, hint := d.hint,
    context := orContext d.context fallback, code := some d.code }

/-- The finding for a diagnostic of a fragment that starts at a line from outside. -/
def anchorAt? (d : Diagnostic) (start : Int) (fallback : Option Text) :
    Except ValueFault Finding := do
  let line ← Finding.line? (start + d.depth)
  return { line, message := d.message, hint := d.hint,
           context := orContext d.context fallback, code := some d.code }

@[simp] theorem number_line_anchor (d : Diagnostic) (start : Line) (fallback : Option Text) :
    (d.anchor start fallback).line.number = start.number + d.depth := rfl

end Diagnostic

end FragmentLint
