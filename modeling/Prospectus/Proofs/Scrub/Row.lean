import Prospectus.Proofs.Scrub.Clean
import Prospectus.Proofs.Text.Pieces
import Prospectus.Scrub.Document

/-! # Cleaned table rows

Cleaning a row trims its parts and leaves some of them out, so it only takes characters away
(`deletes_cleanRow`), and repeating it in turn with scrubbing settles. What is left is a row that
neither of the two would change (`settled_scrubRow`), and such a row is left alone
(`scrubRow_eq_self`).

Neither of the two would do on its own. Scrubbing may join what stood around a name to a separator,
or to the beginning of the list of students; and cleaning trims parts, which may bring about what a
pattern matches. -/

namespace Prospectus

namespace Scrub

theorem partSeparator_ne_nil : partSeparator ≠ [] := List.cons_ne_nil _ _

/-- The facts of a row are some of its parts, trimmed. -/
theorem facts_sublist (row : List Char) :
    (facts row).Sublist ((Text.splitOn partSeparator row).map Text.trim) :=
  List.filter_sublist.trans (List.takeWhile_sublist _)

theorem deletes_cleanRow : Deletes cleanRow := by
  intro row
  let parts := Text.splitOn partSeparator row
  have hwhole : Text.joinWith partSeparator parts = row :=
    Text.joinWith_splitOn partSeparator_ne_nil row
  calc
    (cleanRow row).Sublist (Text.joinWith partSeparator (parts.map Text.trim)) :=
      Text.joinWith_sublist partSeparator (facts_sublist row)
    List.Sublist _ (Text.joinWith partSeparator parts) :=
      Text.joinWith_map_sublist partSeparator Text.trim_sublist parts
    _ = row := hwhole

namespace Scrubber

variable (s : Scrubber)

/-- The row that is left is settled: neither cleaning nor scrubbing changes it. -/
theorem settled_scrubRow (text : String) :
    cleanTableInfo (s.scrubRow text) = s.scrubRow text ∧
      s.scrub (s.scrubRow text) = s.scrubRow text := by
  -- each round takes characters away, so as many rounds as there are characters come to an end
  have hround : Deletes fun row => s.scrubChars (cleanRow row) :=
    deletes_cleanRow.comp s.deletes_scrubChars
  have hsettled := settle_settled hround (Nat.le_succ text.toList.length)
  obtain ⟨hclean, hscrub⟩ := (deletes_cleanRow.comp_eq_self_iff s.deletes_scrubChars).mp hsettled
  simp only [scrubRow, cleanTableInfo, scrub, String.toList_ofList]
  exact ⟨congrArg String.ofList hclean, congrArg String.ofList hscrub⟩

theorem scrubRow_eq_self {text : String} (hclean : cleanTableInfo text = text)
    (hscrub : s.scrub text = text) : s.scrubRow text = text := by
  have hrow : cleanRow text.toList = text.toList := by
    simpa [cleanTableInfo] using congrArg String.toList hclean
  have hfix : s.scrubChars (cleanRow text.toList) = text.toList := by
    rw [hrow, scrub_eq_self_iff.mp hscrub]
  rw [scrubRow, settle_of_settled hfix, String.ofList_toList]

end Scrubber

end Scrub

end Prospectus
