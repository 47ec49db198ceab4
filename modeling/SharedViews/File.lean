/-! Files, as far as they are read.

What a program sees of the file system is, for each path, a text or the reason
why there is none. Whoever writes a file, or takes it away, changes what is seen
at its path and nowhere else. -/
namespace SharedViews

/-- Why a file gives no text. -/
inductive ReadFailure
  | notFound
  | notADirectory
  | isADirectory
  | notText
  deriving DecidableEq, Inhabited, Repr

def ReadFailure.message : ReadFailure → String
  | .notFound => "No such file or directory (os error 2)"
  | .notADirectory => "Not a directory (os error 20)"
  | .isADirectory => "Is a directory (os error 21)"
  | .notText => "stream did not contain valid UTF-8"

/-- The text behind each path. -/
abbrev Files := String → Except ReadFailure String

/-- The files once there is something else at a path. -/
def Files.put (files : Files) (path : String) (content : Except ReadFailure String) : Files :=
  fun asked => if asked = path then content else files asked

@[simp] theorem Files.put_self (files : Files) (path : String)
    (content : Except ReadFailure String) : files.put path content path = content := by
  simp [put]

theorem Files.put_of_ne (files : Files) {path asked : String} (h : asked ≠ path)
    (content : Except ReadFailure String) : files.put path content asked = files asked := by
  simp [put, h]

end SharedViews
