import SharedViews.Proofs.Engine.Acts

/-! The text of the shell.

Pages add to the head and the foot of the documents, but the shell itself stays. If it is a
file, a look at it that finds nothing remembered reads the file: what the first read that
succeeds gives is remembered for good, and a read that fails leaves nothing behind
(`shell_after`). -/
namespace SharedViews.Engine
variable {e : Engine} {path text : String}

theorem documentsShell_step (e : Engine) (a : Act) :
    (e.step a).documents.shell = e.documents.shell := by
  cases a with
  | operation op =>
    cases op with
    | inspect method params =>
      have hsame := congrArg documents (e.call_snd method params)
      exact congrArg Assembler.shell hsame
    | _ => rfl
  | recallShell =>
    obtain ⟨shell, h⟩ := e.recallShell_eq
    show e.recallShell.2.documents.shell = _
    rw [h]
  | _ => rfl

theorem documentsShell_after (e : Engine) (acts : List Act) :
    (e.after acts).documents.shell = e.documents.shell :=
  after_invariant (P := fun f => f.documents.shell = e.documents.shell)
    (fun f a h => (f.documentsShell_step a).trans h) rfl acts

/-! ### One look -/

theorem shellText_remembered (h : e.shell = some text) (path : String) :
    e.shellText (.path path) = (.ok text, e) := by
  simp [shellText, h]

theorem shellText_read (h : e.shell = none) (hfile : e.files path = .ok text) :
    e.shellText (.path path) = (.ok text, {e with shell := some text}) := by
  simp [shellText, h, hfile]

theorem shellText_failed {cause : ReadFailure} (h : e.shell = none)
    (hfile : e.files path = .error cause) :
    e.shellText (.path path) = (.error (.shell path cause), e) := by
  simp [shellText, h, hfile]

/-- A look at a file gives what is remembered after it; if nothing is, it could not be read. -/
theorem shellText_path (e : Engine) (path : String) :
    (∃ text, (e.shellText (.path path)).2.shell = some text ∧
        (e.shellText (.path path)).1 = .ok text) ∨
      ((e.shellText (.path path)).2.shell = none ∧ ∃ cause, e.files path = .error cause ∧
        (e.shellText (.path path)).1 = .error (.shell path cause)) := by
  cases hshell : e.shell with
  | some text =>
    rw [shellText_remembered hshell]
    exact .inl ⟨text, hshell, rfl⟩
  | none =>
    cases hfile : e.files path with
    | ok text =>
      rw [shellText_read hshell hfile]
      exact .inl ⟨text, rfl, rfl⟩
    | error cause =>
      rw [shellText_failed hshell hfile]
      exact .inr ⟨hshell, cause, rfl, rfl⟩

/-! ### All looks -/

/-- What the act would read of the file if nothing were remembered. -/
def read? (path : String) (e : Engine) : Act → Option String
  | .recallShell => (e.files path).toOption
  | _ => none

/-- What the first read that succeeds gives. -/
def firstRead? (path : String) (e : Engine) : List Act → Option String
  | [] => none
  | a :: rest => (e.read? path a).or (firstRead? path (e.step a) rest)

theorem firstRead?_append (path : String) (e : Engine) (a b : List Act) :
    firstRead? path e (a ++ b) = (firstRead? path e a).or (firstRead? path (e.after a) b) := by
  induction a generalizing e with
  | nil => rfl
  | cons act rest ih =>
    rw [List.cons_append, firstRead?, firstRead?, ih, Option.or_assoc]
    rfl

/-- A successful read is the first whatever comes after it. -/
theorem firstRead?_of_prefix {acts more : List Act} (h : firstRead? path e acts = some text)
    (hmore : acts <+: more) : firstRead? path e more = some text := by
  obtain ⟨rest, rfl⟩ := hmore
  rw [firstRead?_append, h]
  rfl

theorem shell_step (h : e.documents.shell = .path path) (a : Act) :
    (e.step a).shell = e.shell.or (e.read? path a) := by
  have hkept : e.shell = e.shell.or none := Option.or_none.symm
  cases a with
  | recallShell =>
    show e.recallShell.2.shell = e.shell.or (e.files path).toOption
    rw [recallShell, h]
    cases hshell : e.shell with
    | some text =>
      rw [shellText_remembered hshell]
      exact hshell
    | none =>
      cases hfile : e.files path with
      | ok text =>
        rw [shellText_read hshell hfile]
        rfl
      | error cause =>
        rw [shellText_failed hshell hfile]
        exact hshell
  | operation op =>
    cases op with
    | inspect method params => exact (congrArg shell (e.call_snd method params)).trans hkept
    | _ => exact hkept
  | _ => exact hkept

/-- What is remembered of a shell file is what the first read that succeeds gave. -/
theorem shell_after (h : e.documents.shell = .path path) (acts : List Act) :
    (e.after acts).shell = e.shell.or (firstRead? path e acts) := by
  induction acts generalizing e with
  | nil => exact Option.or_none.symm
  | cons a rest ih =>
    show ((e.step a).after rest).shell = _
    rw [ih ((e.documentsShell_step a).trans h), shell_step h, Option.or_assoc]
    rfl

end SharedViews.Engine
