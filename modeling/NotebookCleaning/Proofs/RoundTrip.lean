import NotebookCleaning.Proofs.Printing

/-!
# Reading what has been written

A notebook is read back from its own text exactly if its value is legible (`ofText?_text_iff`). All
notebooks that come from reading are legible, however their texts are spelled, so writing a notebook
that was read and reading it again loses nothing.
-/

namespace NotebookCleaning.Notebook

open Json.Reader

variable {nb : Notebook} {bs : List UInt8}

theorem ofJson?_toJson (nb : Notebook) : ofJson? nb.toJson = .ok nb := by
  unfold ofJson? toJson
  dsimp only
  split
  · rfl
  · next defect hdefect =>
    rw [defect?_eq_none_iff.mpr nb.shape] at hdefect
    cases hdefect

theorem ofText?_text_iff : ofText? nb.text = .ok nb ↔ Json.Legible maxDepth nb.toJson := by
  constructor
  · exact legible_of_ofOctets?
  · intro h
    rw [ofText?, ofOctets?, text, Json.parse_render h]
    simp only [ofJson?_toJson]
    rfl

/-- What is read from any octets is read back from its own text, entry by entry and number by
number, so a text that was written once is written again as it is. -/
theorem read_of_written (h : ofOctets? bs = .ok nb) :
    ofText? nb.text = .ok nb ∧ ofOctets? (Utf8.encode nb.text) = .ok nb ∧
      (ofText? nb.text).map text = .ok nb.text := by
  have hread : ofText? nb.text = .ok nb := ofText?_text_iff.mpr (legible_of_ofOctets? h)
  refine ⟨hread, hread, ?_⟩
  rw [hread]
  rfl

/-- A cell as it is read from a text that spells it in an unusual way. -/
def respelled : Notebook where
  root := [("cells", .arr [.obj [("c", .str "A😀\n"), ("n", .num "-0"), ("x", .num "1.5e+03")]])]
  shape := defect?_eq_none_iff.mp rfl

/-- The text repeats a key, escapes a surrogate pair, and spells one number as an object. -/
def unusualText : String :=
  "\x7b\"cells\":[\x7b\"c\":0,\"n\":\x7b\"$serde_json::private::Number\":\"-0\"\x7d," ++
    "\"c\":\"\\u0041\\ud83d\\uDE00\\n\",\"x\":1.5E03\x7d]\x7d"

theorem read_of_written_respelled : ofOctets? (Utf8.encode unusualText) = .ok respelled ∧
    ofText? respelled.text = .ok respelled ∧
      ofOctets? (Utf8.encode respelled.text) = .ok respelled ∧
      (ofText? respelled.text).map text = .ok respelled.text :=
  have hread : ofOctets? (Utf8.encode unusualText) = .ok respelled := rfl
  ⟨hread, read_of_written hread⟩

end NotebookCleaning.Notebook
