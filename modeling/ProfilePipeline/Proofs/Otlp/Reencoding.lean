import Mathlib.Tactic.Common
import ProfilePipeline.Proofs.Otlp.Canonical
import ProfilePipeline.Proofs.Wire.Accepted
import ProfilePipeline.Proofs.Wire.Tidy

/-!
# Writing again what was read

A reader accepts more than anyone writes: fields in any order and in pieces, fields that it does not
know, lists in either form, numbers with superfluous digits or too long for their type.  Written
again, a message is none of this any more.

* `Reencodes` — what becomes of content that is written canonically.
* `reencodes_decoded` — **so it is with all content that was read**, of any type and from any bytes.
-/

namespace ProfilePipeline.Otlp

open Wire (Bytes Content)

/-- **The canonical bytes of the content are a normal form**: they are as many as counted ahead,
they are read as that very content, so that writing it once more changes no byte, and in every
message of theirs are fields of its descriptor alone, in the order of their numbers. -/
structure Reencodes (name : MessageName) (content : Content) : Prop where
  length : (canonical name content).length = canonicalLen name content
  again : decode? name (canonical name content) = some content
  fixed : (decode? name (canonical name content)).map (canonical name) =
    some (canonical name content)
  tidy : Wire.Tidy schema name (canonical name content)

/-- **Content that was read has a normal form**, whatever bytes it was read from.  No byte string in
memory is as long as the bound. -/
theorem reencodes_decoded {name : MessageName} {input : Bytes} {content : Content}
    (hlen : input.length < 2 ^ 63) (hread : decode? name input = some content) :
    Reencodes name content := by
  obtain ⟨hheld, hshort⟩ := Content.decode?_held hlen hread
  have hagain : decode? name (canonical name content) = some content :=
    Content.decode?_canonical schema_sound hlen hread
  exact
    { length := (canonicalLen_eq name content).symm
      again := hagain
      fixed := by rw [hagain, Option.map_some]
      tidy := Content.tidy_encode schema_sound schema_ascending hheld.fits
        (hshort.trans_lt (by omega)) }

/-- A location in pieces: an element of a list on its own and two more packed, a field that no
location has, a number with a superfluous digit that a later one replaces, a number too long for its
type, and a line behind them. -/
def scattered : Bytes :=
  [0x38, 5, 0x78, 1, 0x08, 0x89, 0, 0x3a, 3, 1, 0xac, 2, 0x08, 3, 0x30, 0x81, 0x80, 0x80, 0x80,
    0x10, 0x22, 2, 0x08, 1]

theorem reencodes_scattered :
    ∃ content, decode? .location scattered = some content ∧ Reencodes .location content := by
  have hread : decode? .location scattered = some
      [[.word 3], [.word 0], [.word 0], [.message [[.word 1], [.word 0], [.word 0]]], [.word 0],
        [.word 1], [.word 5, .word 1, .word 300]] := by
    cbv
  exact ⟨_, hread, reencodes_decoded (by decide) hread⟩

end ProfilePipeline.Otlp
