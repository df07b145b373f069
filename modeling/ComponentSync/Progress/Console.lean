/-!
Progress output as the text it leaves on the terminal. Plain lines end with a newline; raw
writes are kept as they are. A status opens with the line ` • MSG...` and is closed exactly
once, by ` ✓ MSG` when its step succeeded or ` ✗ MSG` when the step failed or was abandoned.
-/
namespace ComponentSync

structure Console where
  text : String
  deriving DecidableEq, Repr, Inhabited

def Console.empty : Console := ⟨""⟩

def Console.line (c : Console) (t : String) : Console :=
  ⟨c.text ++ t ++ "\n"⟩

def Console.write (c : Console) (t : String) : Console :=
  ⟨c.text ++ t⟩

def Console.begin (c : Console) (msg : String) : Console :=
  c.line (" • " ++ msg ++ "...")

/-- Closes a status: a check mark when its step succeeded, a cross otherwise. -/
def Console.finish (c : Console) (msg : String) (ok : Bool) : Console :=
  c.line (" " ++ (if ok then "✓" else "✗") ++ " " ++ msg)

/-- How a console describes itself: its sink is not shown. -/
def Console.describe : String := "Console \x7b .. \x7d"

@[simp] theorem Console.line_text (c : Console) (t : String) :
    (c.line t).text = c.text ++ t ++ "\n" := rfl

end ComponentSync
