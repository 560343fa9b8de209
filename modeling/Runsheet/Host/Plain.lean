/-
The plain host: the one that the command runs on. Its assignment file is
`.env` in the working directory, and what is set already is not replaced;
of two assignments to a name within the file, the later counts. Its
output goes to no terminal, so it has colour only if a variable forces
it: without a word, by `true`, or by a number of one or more.

It is a host like any other. Nothing that holds of the program depends
on its rules, and they go no further than this: there are no options for
the assignment file, and no arguments that speak of colour.
-/
import Runsheet.Host
import Runsheet.Host.Assignment

namespace Runsheet.Host

/-- The file of assignments that the environment is completed from. -/
def assignmentFile : Text := ".env".toList

/-- The variable that forces colour. -/
def colourName : Text := "FORCE_COLOR".toList

/-- The environment, completed from the assignment file if there is
one. -/
def completed (env : Environment) (t : FileTree) : Environment :=
  match t.readText assignmentFile with
  | .ok file => env ++ (Assignment.ofFile file).reverse
  | .error _ => env

/-- The digits at the front of a number, a sign and blanks before them
left aside. -/
def leadingDigits (number : Text) : Text :=
  match number.trimStart with
  | '+' :: rest => rest.takeWhile Char.isDigit
  | rest => rest.takeWhile Char.isDigit

/-- Whether a variable forces colour. -/
def forcesColour (env : Environment) : Bool :=
  match env.lookup colourName with
  | none => false
  | some v => v.isEmpty || v = "true".toList || (leadingDigits v).any (· ≠ '0')

/-- The host with these rules. It says nothing, and always starts. -/
def plain : Host := fun _ env t =>
  let env := completed env t
  ⟨.empty, some ⟨env, forcesColour env⟩⟩

end Runsheet.Host
