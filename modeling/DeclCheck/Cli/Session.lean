import DeclCheck.Cli.Error
import DeclCheck.Run.File
import DeclCheck.Version

/-!
# Sessions

What a command finds around it, what it gives, and what it leaves to the next command of the same
process.
-/
namespace DeclCheck.Cli

/-- What a command finds around it. An empty directory is not known. -/
structure Surroundings where
  cwd : Text
  /-- The directory for caches of all programs. -/
  cacheHome : Text := []
  home : Text := []
  /-- Does the output go to a terminal? -/
  terminal : Bool := false
  build : Build := {}
  deriving Repr, Inhabited

/-- What a command leaves to the next one: the last choice of colours, and how many events and spans
were numbered. -/
structure Session where
  color : Bool := false
  events : Nat := 0
  spans : Nat := 0
  deriving Repr, Inhabited

structure Outcome where
  stdout : Text := []
  stderr : Text := []
  error : Option CommandError := none
  deriving Repr, Inhabited

/-- A command that is about to fail or to give an outcome, and tells what happens. -/
abbrev CommandM (m : Type → Type) := ExceptT CommandError (Run.RunM m)

variable {m : Type → Type} [Monad m] [MonadFiles m]

def onFiles {α : Type} (act : m α) : CommandM m α := liftM (Run.files act)

/-- Goes on with a value, or fails for a cause that is made from an error. -/
def orFail {ε α : Type} (cause : ε → CommandError) : Except ε α → CommandM m α
  | .ok a => pure a
  | .error e => throw (cause e)

def colorMode? (flags : FlagSettings) : Option ColorMode :=
  ColorMode.parse? (flags.text "color" "auto")

def usesColor (around : Surroundings) (flags : FlagSettings) : Bool :=
  (colorMode? flags).any (·.isUsed around.terminal)

end DeclCheck.Cli
