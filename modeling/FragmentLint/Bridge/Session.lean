import FragmentLint.Bridge.Fault
import FragmentLint.Bridge.Child
import FragmentLint.Json.Printer
import FragmentLint.Text.Blank

/-!
# Sessions

A session is a process that serves one request after another. Requests and answers are
JSON objects, one on each line; lines of output that are no JSON object are passed over.
Requests are numbered from one, and an answer has to carry the number of its request. A
session begins when the process says that it is ready. Several sessions may be tried over
one process; what it writes to its errors reaches the first of them.

A line that is longer than can be read is a fault in the output, and in the errors the last thing
that is heard of them.

Waiting for output that never comes is the one way in which a step of a session does not
end: then it has no result.
-/

namespace FragmentLint

/-- A process that serves requests. -/
structure Session where
  child : Child
  /-- The number of the last request. -/
  last : Nat := 0
  /-- Whether the errors of the process reach the session. -/
  listens : Bool := true

namespace Session

/-- How many lines of the errors are kept for the text of a fault. -/
def errorLimit : Nat := 20

/-- What the errors of a process say about its end: their last lines that are not blank, as far as
they can be read. -/
def detail (errors : Text) : Text :=
  let read := (Text.lines errors).takeWhile fun line => !Child.isOverlong line
  let texts := (read.map Text.trimEnd).filter (· ≠ [])
  match texts.drop (texts.length - errorLimit) with
  | [] => "no output"
  | kept => Text.join " | " kept

/-- What a line of output says. -/
def said? [Host] (line : Text) : Option (Except ValueFault Json.Members) :=
  Json.said? (Text.trim line)

/-- What comes of reading a line of output. -/
def read? [Host] (line : Text) : Option (Except ValueFault Json.Members) :=
  if Child.isOverlong line then some (.error (.overlong true)) else said? line

/-- The first message among lines of output, and the lines behind it. A line that goes beyond
what can be read is a fault, and is used up too. -/
def message? [Host] : List Text → Option (Except ValueFault Json.Members × List Text)
  | [] => none
  | line :: lines => match read? line with
    | some said => some (said, lines)
    | none => message? lines

/-- What came of reading: a message, the end of the output, or a fault. -/
inductive Heard where
  | message (members : Json.Members)
  | ended (code : Int) (detail : Text)
  | fault (fault : ValueFault)

def withUnread (s : Session) (unread : List Text) : Session :=
  { s with child := { s.child with unread } }

/-- The session with all its output used up, the unfinished line as well. -/
def overrun (s : Session) : Session :=
  { s with child := { s.child with unread := [], unfinished := [] } }

def errors (s : Session) : Text :=
  if s.listens then s.child.errors else []

/-- The next message, with the session behind it. There is none while a process that has not
ended has written nothing more. -/
def hear? [Host] (s : Session) : Option (Heard × Session) :=
  match message? s.child.unread with
  | some (.ok members, unread) => some (.message members, s.withUnread unread)
  | some (.error fault, unread) => some (.fault fault, s.withUnread unread)
  | none =>
    if Child.isOverlong s.child.unfinished then some (.fault (.overlong false), s.overrun)
    else match s.child.exit with
      | some code => some (.ended code (detail s.errors), s.withUnread [])
      | none => none

/-- A session that is closed, and what was noted. Its input is closed, and a process that
does not end then is killed. -/
def close (s : Session) : Session × List Notice :=
  if s.child.isAlive then
    let closed := s.child.closeInput
    if closed.isAlive then ({ s with child := closed.kill }, [.stubborn closed.behaviour.pid])
    else ({ s with child := closed }, [])
  else (s, [])

def kill (s : Session) : Session :=
  { s with child := s.child.kill }

/-- A session over a process, not yet greeted. It listens to the errors unless another one
did so before. -/
def ofChild (p : Child) : Session :=
  { child := { p with listened := true }, listens := !p.listened }

/-- The first message of a session. Without time to wait nothing is heard at all, and with
a limit waiting comes to an end. -/
def greeting? [Host] (s : Session) (timeout : Option Number) :
    Option (Except (Sum StartFault ValueFault) Json.Members × Session) :=
  if timeout.any Number.isNonpositive then some (.error (.inl .timedOut), s)
  else match s.hear? with
    | some (.message members, s) => some (.ok members, s)
    | some (.ended code detail, s) => some (.error (.inl (.ended code detail)), s)
    | some (.fault fault, s) => some (.error (.inr fault), s)
    | none => match timeout with
      | some _ => some (.error (.inl .timedOut), s.withUnread [])
      | none => none

/-- A session that cannot be used, closed. -/
def refused (s : Session) (fault : BridgeFault) : Except Fault Unit × Session × List Notice :=
  let (s, notices) := s.close
  (.error (.bridge fault), s, notices)

/-- A session that turned out not to be ready. If nothing had to be waited for, neither its
message nor its end, it never came to listen, and the errors are left to the next one. -/
def unready (p : Child) (s : Session) (timeout : Option Number) : Session :=
  if timeout.isNone && !s.child.isAlive then
    { s with child := { s.child with listened := p.listened } }
  else s

/-- The session over a process that has been started, whether it can be used, and what was
noted. A process that is not ready is closed, but a fault of another kind leaves it as it
is. -/
def connect [Host] (p : Child) (timeout : Option Number) :
    Option (Except Fault Unit × Session × List Notice) :=
  (greeting? (ofChild p) timeout).map fun (greeting, s) =>
    match greeting with
    | .error (.inl fault) => s.refused (.notStarted fault)
    | .error (.inr fault) => (.error (.value fault), s, [])
    | .ok members =>
      if ((members.get? "ready").map Json.isTruthy).getD false then (.ok (), s, [])
      else
        (unready p s timeout).refused
          (.notLoaded (((members.get? "message").map Json.shown).getD "unknown error"))

/-- The line that asks for something under a number. -/
def requestLine (payload : Json.Members) (number : Nat) : Text :=
  (Json.obj (payload.put "id" (.num (.int number)))).render .request ++ ['\n']

/-- The answer that a message is to the request of a given number. -/
def replyTo (number : Nat) (members : Json.Members) : Except Fault Json.Members :=
  let found := (members.get? "id").getD .null
  if found.equalsInt number then .ok members
  else .error (.bridge (.outOfTurn found number))

/-- What was heard, as the answer to the request of a given number. -/
def answerTo (number : Nat) : Heard → Except Fault Json.Members
  | .message members => replyTo number members
  | .ended code detail => .error (.bridge (.ended code detail))
  | .fault fault => .error (.value fault)

/-- The answer to a request, and the session behind it. A process that has ended is not
asked any more. -/
def request [Host] (s : Session) (payload : Json.Members) :
    Option (Except Fault Json.Members × Session) :=
  match s.child.exit with
  | some code => some (.error (.bridge (.gone code)), s)
  | none =>
    let number := s.last + 1
    match s.child.write (requestLine payload number) with
    | .error reason =>
      some (.error (.bridge (.closedInput reason)), { s with last := number })
    | .ok child => ({ s with child, last := number }.hear?).map fun (heard, s) =>
      (answerTo number heard, s)

/-- The answers to several requests that are made at once: they are served in turn. -/
def requests [Host] (s : Session) :
    List Json.Members → Option (List (Except Fault Json.Members) × Session)
  | [] => some ([], s)
  | payload :: payloads => do
    let (answer, s) ← s.request payload
    let (answers, s) ← s.requests payloads
    return (answer :: answers, s)

end Session

end FragmentLint
