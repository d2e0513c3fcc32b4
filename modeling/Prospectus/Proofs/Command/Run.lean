import Prospectus.Command.Run
import Prospectus.Proofs.Store.Documents

/-! # Commands on a file tree

How a command runs on a file tree: how it ends, the lines that it has printed, and the tree that it
leaves. A run of several steps is the runs of the steps (`on_bind`); a step on files passes the
lines on (`on_part`), and a step on no files the tree as well (`on_pureStep`).

A command is a program over three layers, for errors, for lines and for the tree. The equations
take it apart step by step without a look at the layers, and they are all that the theorems about
commands know of them. Lines that were printed stay printed and the tree stays changed when a later
step fails, since errors are the outermost layer. -/

namespace Prospectus.Command

open Store (FileTree Path Session StoreError)

variable {ε α β : Type} {t : FileTree} {lines : List String}

namespace Run

/-- How a run ends, the lines after those that were there before, and the tree that it leaves. The
lines so far are an argument, as a step of a run has those of the steps before it. -/
def on (x : Run Session α) (lines : List String) (t : FileTree) :
    Except CommandError α × List String × FileTree :=
  let ((result, lines), t) := (x.run.run lines).run t
  (result, lines, t)

/-- The second step runs on the lines and the tree that the first one leaves, and not at all if the
first one fails. -/
theorem on_bind (x : Run Session α) (f : α → Run Session β) (lines : List String) (t : FileTree) :
    (x >>= f).on lines t = match x.on lines t with
      | (.ok a, lines', t') => (f a).on lines' t'
      | (.error e, lines', t') => (.error e, lines', t') := by
  simp only [on, ExceptT.run_bind, StateT.run_bind]
  rcases (x.run.run lines).run t with ⟨⟨_ | a, lines'⟩, t'⟩
  · rfl
  · rfl

end Run

open Run (on on_bind)

/-- Giving a value back does nothing else. -/
theorem on_pure (a : α) : on (pure a : Run Session α) lines t = (.ok a, lines, t) := rfl

/-- A line is printed behind those that are there. -/
theorem on_say (line : String) : on (say line : Run Session Unit) lines t =
    (.ok (), lines ++ [line], t) := rfl

/-- A step on no files leaves lines and tree alone, whether or not it fails. -/
theorem on_pureStep (asError : ε → CommandError) (x : Except ε α) :
    on (pureStep asError x : Run Session α) lines t = (x.mapError asError, lines, t) := rfl

/-- A step on files leaves the lines alone, and may change the tree even if it fails. -/
theorem on_part (asError : ε → CommandError) (x : ExceptT ε Session α) :
    on (part asError x) lines t =
      ((Session.on x t).1.mapError asError, lines, (Session.on x t).2) := rfl

/-- Several lines are printed one after the other. -/
theorem on_forM_say (new : List String) :
    on (new.forM say : Run Session Unit) lines t = (.ok (), lines ++ new, t) := by
  induction new generalizing lines with
  | nil => rw [List.append_nil]; rfl
  | cons line new ih =>
    show on (say line >>= fun _ => new.forM say) lines t = _
    rw [on_bind, on_say]
    show on (new.forM say) (lines ++ [line]) t = _
    rw [ih, List.append_assoc, List.singleton_append]

end Prospectus.Command
