/-!
# Errors of the operating system

Files and sockets fail with errors of the operating system, which are known by their numbers.
Faults quote them by `SystemError.text`.
-/

namespace StreamConformance

/-- An error of the operating system. -/
structure SystemError where
  code : Nat
  description : String
  deriving DecidableEq

namespace SystemError

/-- How an error is quoted. -/
def text (e : SystemError) : String :=
  s!"{e.description} (os error {e.code})"

def noSuchFile : SystemError := ⟨2, "No such file or directory"⟩
def permissionDenied : SystemError := ⟨13, "Permission denied"⟩
def notADirectory : SystemError := ⟨20, "Not a directory"⟩
def isADirectory : SystemError := ⟨21, "Is a directory"⟩
def brokenPipe : SystemError := ⟨32, "Broken pipe"⟩
def nameTooLong : SystemError := ⟨36, "File name too long"⟩
def networkUnreachable : SystemError := ⟨101, "Network is unreachable"⟩
def connectionReset : SystemError := ⟨104, "Connection reset by peer"⟩
def timedOut : SystemError := ⟨110, "Connection timed out"⟩
def connectionRefused : SystemError := ⟨111, "Connection refused"⟩
def hostUnreachable : SystemError := ⟨113, "No route to host"⟩

/-- The errors with a description of their own. -/
def known : List SystemError :=
  [noSuchFile, permissionDenied, notADirectory, isADirectory, brokenPipe, nameTooLong,
    networkUnreachable, connectionReset, timedOut, connectionRefused, hostUnreachable]

/-- The error with a number; one that is not known is described by other words. -/
def ofCode (code : Nat) (otherwise : String) : SystemError :=
  (known.find? (·.code == code)).getD ⟨code, otherwise⟩

end SystemError
end StreamConformance
