import Provision.Proofs.Recipe.Decoding
import Provision.Proofs.Recipe.Order

/-!
# The canonical text as a form of storage

`canonical_reads_back`: whatever document a recipe was read from, its canonical text is read as the same
recipe, with at most the settings of a step in another order, and the recipe that is read has the very same
canonical text. So storing a recipe again and again changes nothing after the first time.
-/

namespace Provision.Recipe

variable {r : Recipe} {v : Json} {now : Timestamp}

/-- What is read from a document without doubled keys can be stored, where its settings hold no
floating-point number, no integer of too many digits and not too many values inside each other. -/
theorem isStorable_of_ofJson (hv : v.WellKeyed) (hr : Recipe.ofJson now v = .ok r)
    (hexact : r.isExact = true) (hdigits : ∀ s ∈ r.steps, (Json.obj s.config).writable = true)
    (hnesting : ∀ s ∈ r.steps, s.nestsTooDeep = false) : r.IsStorable :=
  ⟨hexact, wellKeyed_of_ofJson hv hr, hnesting, hdigits⟩

theorem IsStorable.reads (h : r.IsStorable) :
    ∃ text, r.canonical = .ok text ∧ ∃ j, Json.read .standard text = .ok j ∧
      ∀ later, Recipe.ofJson later j = .ok r.ordered := by
  obtain ⟨text, htext⟩ := h.canonical
  have hnone : ∀ c ∈ "".toList, Json.isSpace c = true := by simp
  have hread : ∀ later, ∃ j, Json.read .standard text = .ok j ∧
      Recipe.ofJson later j = .ok r.ordered := by
    intro later
    obtain ⟨j, hj, hrj⟩ := read_canonical h.exact h.keyed htext hnone later
    rw [String.append_empty] at hj
    exact ⟨j, hj, hrj⟩
  obtain ⟨j, hj, -⟩ := hread .epoch
  refine ⟨text, htext, j, hj, fun later => ?_⟩
  obtain ⟨j', hj', hr'⟩ := hread later
  cases hj.symm.trans hj'
  exact hr'

/-- The canonical text of a recipe that was read from a document is read as the recipe, up to the order of
settings, and is the canonical text of what is read. The settings nest less deep than the 255 levels at which the
writer gives up, with no text at all: that is what `nestsTooDeep` asks. -/
theorem canonical_reads_back (hv : v.WellKeyed) (hr : Recipe.ofJson now v = .ok r)
    (hexact : r.isExact = true) (hdigits : ∀ s ∈ r.steps, (Json.obj s.config).writable = true)
    (hnesting : ∀ s ∈ r.steps, s.nestsTooDeep = false) :
    ∃ text j r', r.canonical = .ok text ∧ Json.read .standard text = .ok j ∧
      (∀ later, Recipe.ofJson later j = .ok r') ∧ r.Alike r' ∧ r'.canonical = .ok text := by
  have hs := isStorable_of_ofJson hv hr hexact hdigits hnesting
  obtain ⟨text, htext, j, hj, hread⟩ := hs.reads
  have halike := alike_ordered r
  exact ⟨text, j, r.ordered, htext, hj, hread, halike,
    (halike.canonical hs.keyed).symm.trans htext⟩

/-- A document with controls, quotes and characters that are escaped, settings that are out of order, and a
date with microseconds and an offset. -/
def sampleDocument : Json :=
  .obj [("project", .obj [("id", .str "p"), ("name", .str "\t\"\\ \x00é")]),
    ("vars", .obj [("Z", .str "1"), ("A", .str "$Z")]),
    ("steps", .arr [.obj [("type", .str "copy"), ("config", .obj [("src", .str "b\n"),
      ("mode", .int 755), ("dest", .arr [.null, .bool true, .obj [("y", .int (-1)), ("x", .arr [])]])])]]),
    ("updatedAt", .str "2024-02-29 23:59:59.25-05:30")]

theorem sampleDocument.isValid_date :
    Clock.isValid ⟨2024, 2, 29, 23, 59, 59, 250000, some (-330)⟩ = true := by
  decide

def sampleDocument.recipe : Recipe where
  schemaVersion := currentSchema
  project := { id := "p", name := "\t\"\\ \x00é" }
  vars := [("Z", "1"), ("A", "$Z")]
  steps := [{ type := "copy", config := [("src", .str "b\n"), ("mode", .int 755),
    ("dest", .arr [.null, .bool true, .obj [("y", .int (-1)), ("x", .arr [])]])] }]
  updatedAt := ⟨⟨2024, 2, 29, 23, 59, 59, 250000, some (-330)⟩, sampleDocument.isValid_date⟩

theorem canonical_reads_back_document :
    sampleDocument.WellKeyed ∧ Recipe.ofJson .epoch sampleDocument = .ok sampleDocument.recipe ∧
      ∃ text j r', sampleDocument.recipe.canonical = .ok text ∧ Json.read .standard text = .ok j ∧
        (∀ later, Recipe.ofJson later j = .ok r') ∧ sampleDocument.recipe.Alike r' ∧
        r'.canonical = .ok text := by
  have hkeyed : sampleDocument.WellKeyed := by
    simp [sampleDocument, Json.WellKeyed, Json.WellKeyedMembers, Json.WellKeyedItems, IsKeyed]
  have hread : Recipe.ofJson .epoch sampleDocument = .ok sampleDocument.recipe := by rfl
  exact ⟨hkeyed, hread, canonical_reads_back hkeyed hread (by decide) (by decide) (by decide)⟩

end Provision.Recipe
