import FragmentLint.Text.Quoted
import FragmentLint.Text.Utf8

/-!
# Reading files

A file is read as a whole and taken for UTF-8. However its lines end, they end with line
feeds afterwards. A file may be missing, be no file at all, or hold other bytes; the text
of each fault tells which.
-/

namespace FragmentLint

/-- Why a file gives no bytes. -/
inductive FileFault where
  | missing
  /-- A name on the way is that of a file. -/
  | notDirectory
  | isDirectory
  /-- Any other reason, with its number. -/
  | other (number : Nat) (reason : Text)
  /-- The path has no written form by which it could be looked for. -/
  | unnamed (reason : Text)
  deriving DecidableEq, Repr

namespace FileFault

def numbered (number : Nat) (reason path : Text) : Text :=
  "[Errno " ++ Text.ofNat number ++ "] " ++ reason ++ ": " ++ Text.quoted path

def message (path : Text) : FileFault → Text
  | .missing => numbered 2 "No such file or directory" path
  | .notDirectory => numbered 20 "Not a directory" path
  | .isDirectory => numbered 21 "Is a directory" path
  | .other number reason => numbered number reason path
  | .unnamed reason => reason

end FileFault

abbrev Files := Text → Except FileFault (List UInt8)

namespace Files

def withLineFeeds : Text → Text
  | [] => []
  | '\r' :: '\n' :: t => '\n' :: withLineFeeds t
  | '\r' :: t => '\n' :: withLineFeeds t
  | c :: t => c :: withLineFeeds t

def read (files : Files) (path : Text) : Except Text Text :=
  match files path with
  | .error fault => .error (fault.message path)
  | .ok bytes => match Text.Utf8.decode bytes with
    | .error fault => .error (Text.Utf8.message fault)
    | .ok t => .ok (withLineFeeds t)

end Files

end FragmentLint
