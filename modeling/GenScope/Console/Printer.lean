import GenScope.Console.Markup

/-!
# Printers

How styled text is drawn, and what is left of a text that is printed with markup, is left to a library
(`Printer`). What can be relied on is that every text that is drawn gets a line.
-/

namespace GenScope

structure Printer where
  draw : Styled → Text
  /-- What is left of a text printed with markup. -/
  unmark : Text → Text
  draw_ne_nil : ∀ line, draw line ≠ []

namespace Printer

/-- Texts drawn one below the other. -/
def drawAll (p : Printer) (lines : List Styled) : Text := lines.flatMap p.draw

/-- Draws lines for a terminal, with its codes or without. -/
def terminal (codes : Bool) : Printer where
  draw := Styled.draw codes
  unmark := Markup.removeTags
  draw_ne_nil _ := by simp [Styled.draw]

end Printer

end GenScope
