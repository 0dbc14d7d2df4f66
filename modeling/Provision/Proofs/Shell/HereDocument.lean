import Provision.Proofs.Shell.Lexing
import Provision.Proofs.Shell.Marker
import Provision.Proofs.Step.Settings
import Provision.Proofs.Text.Pieces
import Provision.Script.Fragment

/-!
# What a here-document holds

The shell ends a here-document at the first physical line that equals its marker, while the marker is
chosen by looking at whole lines of the payload. `marker_not_mem`: the marker is none of them.
`document_ends_iff`: the document of an append step ends at the last line of the block exactly when no
payload line that itself holds newlines has the marker among its physical lines; what follows an
earlier end is shell code again.
-/

namespace Provision.HereDoc

def physicalLines (cs : List Char) : List (List Char) :=
  Text.pieces (fun c => c = '\n') cs

theorem physicalLines_of_no_newline {cs : List Char} (h : '\n' ∉ cs) : physicalLines cs = [cs] :=
  Text.pieces_eq_singleton fun c hc => decide_eq_false (by rintro rfl; exact h hc)

theorem physicalLines_marker (lines : List String) :
    physicalLines (marker lines).toList = [(marker lines).toList] := by
  have hbase : '\n' ∉ baseMarker.toList := by decide
  refine physicalLines_of_no_newline ?_
  rcases marker_cases lines baseMarker with ⟨h, -⟩ | ⟨n, h, -⟩ <;> rw [h]
  · exact hbase
  · rw [numbered, String.toList_append, String.toList_append, Decimal.toList_intText_nat]
    intro hm
    rcases List.mem_append.1 hm with hm | hm
    · rcases List.mem_append.1 hm with hm | hm
      · exact hbase hm
      · revert hm; decide
    · have hd := Nat.isDigit_of_mem_toDigits (by decide) (by decide) hm
      revert hd; decide

theorem physicalLines_intercalate (ls : List String) (last : String) :
    physicalLines ("\n".intercalate (ls ++ [last])).toList =
      ls.flatMap (fun l => physicalLines l.toList) ++ physicalLines last.toList := by
  induction ls with
  | nil => simp
  | cons l ls ih =>
    rw [List.cons_append, String.intercalate_cons_of_ne_nil (by simp), String.toList_append,
      String.toList_append, List.append_assoc]
    show physicalLines (l.toList ++ '\n' :: _) = _
    rw [physicalLines, Text.pieces_append_sep (by decide)]
    exact (congrArg _ ih).trans (by rw [List.flatMap_cons, List.append_assoc]; rfl)

/-- The lines of a document that ends at a marker, and the lines behind its end. -/
def readLines (marker : List Char) : List (List Char) → Option (List (List Char) × List (List Char))
  | [] => none
  | l :: ls =>
    if l = marker then some ([], ls)
    else (readLines marker ls).map fun (body, rest) => (l :: body, rest)

/-- What the shell reads as a document, each line ended by a newline, and the physical lines that it
reads as code afterwards. -/
def read (marker tail : String) : Option (List Char × List (List Char)) :=
  (readLines marker.toList (physicalLines tail.toList)).map fun (body, rest) =>
    (body.flatMap (fun l => l ++ ['\n']), rest)

theorem readLines_of_not_mem {m : List Char} {ls : List (List Char)} (h : m ∉ ls)
    (rest : List (List Char)) : readLines m (ls ++ m :: rest) = some (ls, rest) := by
  induction ls with
  | nil => simp [readLines]
  | cons l ls ih =>
    rw [List.mem_cons, not_or] at h
    rw [List.cons_append, readLines, if_neg (Ne.symm h.1), ih h.2]; rfl

theorem readLines_of_mem {m : List Char} {ls : List (List Char)} (h : m ∈ ls) (rest : List (List Char)) :
    ∃ body more, readLines m (ls ++ rest) = some (body, more ++ rest) := by
  obtain ⟨as, bs, rfl, hm⟩ := List.eq_append_cons_of_mem h
  exact ⟨as, bs, by rw [List.append_assoc, List.cons_append]; exact readLines_of_not_mem hm _⟩

theorem mem_payload_iff {lines : List String} :
    (marker lines).toList ∈ lines.flatMap (fun l => physicalLines l.toList) ↔
      ∃ l ∈ lines, '\n' ∈ l.toList ∧ (marker lines).toList ∈ physicalLines l.toList := by
  rw [List.mem_flatMap]
  constructor
  · rintro ⟨l, hl, hm⟩
    refine ⟨l, hl, ?_, hm⟩
    by_contra hn
    -- a payload line without newlines is its only physical line, and the marker is no payload line
    rw [physicalLines_of_no_newline hn, List.mem_singleton, String.toList_inj] at hm
    exact marker_not_mem lines _ (hm ▸ hl)
  · rintro ⟨l, hl, -, hm⟩
    exact ⟨l, hl, hm⟩

theorem read_payload (lines : List String) :
    ∃ body rest, read (marker lines) ("\n".intercalate (lines ++ [marker lines])) = some (body, rest) ∧
      (rest = [] ↔ ∀ l ∈ lines, '\n' ∈ l.toList → (marker lines).toList ∉ physicalLines l.toList) ∧
      (rest = [] → body = lines.flatMap fun l => l.toList ++ ['\n']) := by
  have hcond : (∀ l ∈ lines, '\n' ∈ l.toList → (marker lines).toList ∉ physicalLines l.toList) ↔
      (marker lines).toList ∉ lines.flatMap (fun l => physicalLines l.toList) := by
    rw [mem_payload_iff]
    simp only [not_exists, not_and]
  rw [hcond, read, physicalLines_intercalate, physicalLines_marker]
  by_cases hm : (marker lines).toList ∈ lines.flatMap (fun l => physicalLines l.toList)
  · obtain ⟨body, more, h⟩ := readLines_of_mem hm [(marker lines).toList]
    have hne : more ++ [(marker lines).toList] ≠ [] := by simp
    exact ⟨_, _, by rw [h]; rfl, ⟨fun h0 => absurd h0 hne, fun h0 => absurd hm h0⟩, fun h0 => absurd h0 hne⟩
  · rw [readLines_of_not_mem hm]
    refine ⟨_, _, rfl, ⟨fun _ => hm, fun _ => rfl⟩, fun _ => ?_⟩
    rw [List.flatMap_assoc]
    exact List.flatMap_congr fun l _ => Text.flatMap_pieces '\n' l.toList

end Provision.HereDoc

namespace Provision

open Shell

/-- The lines of an append block before the one that opens the document. -/
def Fragment.appendOpening (file : String) (unique enabled : Bool) : List Line :=
  setTarget file :: backupIfExists enabled ++ [[.code "while IFS= read -r line; do"]] ++
    appendLoop unique

theorem Fragment.appendOpening_isClosed (file : String) (unique enabled : Bool) :
    (appendOpening file unique enabled).all Line.isClosed = true := by
  cases unique <;> cases enabled <;> rfl

theorem Shell.Line.text_code (t : String) : Line.text [.code t] = t := by
  simp [Line.text, Piece.text]

theorem Fragment.text_appendLines (type file : String) (lines : List String) (unique enabled : Bool)
    (requires : List String) :
    Fragment.text ⟨type, appendLines file lines unique enabled, requires⟩ =
      "\n".intercalate ((appendOpening file unique enabled).map Line.text) ++ "\ndone <<'" ++
        HereDoc.marker lines ++ "'\n" ++ "\n".intercalate (lines ++ [HereDoc.marker lines]) := by
  have hl : appendLines file lines unique enabled = appendOpening file unique enabled ++
      [.code ("done <<'" ++ HereDoc.marker lines ++ "'")] ::
        (lines ++ [HereDoc.marker lines]).map (fun l => [.code l]) := by
    simp [appendLines, appendOpening]
  have hm : ((lines ++ [HereDoc.marker lines]).map fun l => [Piece.code l]).map Line.text =
      lines ++ [HereDoc.marker lines] := by
    rw [List.map_map]
    exact (List.map_congr_left fun l _ => Line.text_code l).trans (List.map_id _)
  rw [Fragment.text, hl, List.map_append, List.map_cons, hm, Line.text_code,
    String.intercalate_append_of_ne_nil (by simp [appendOpening]) (by simp),
    String.intercalate_cons_of_ne_nil (by simp)]
  simp only [← String.toList_inj, String.toList_append, List.append_assoc]
  rfl

theorem Fragment.after_appendOpening (file : String) (unique enabled : Bool) :
    Quote.outside.after
      ("\n".intercalate ((appendOpening file unique enabled).map Line.text)).toList = .outside := by
  have h : List.Forall₂ SameOutside ((appendOpening file unique enabled).map Line.text)
      ((appendOpening file unique enabled).map Line.text) := by
    have hc := appendOpening_isClosed file unique enabled
    rw [List.all_eq_true] at hc
    refine List.forall₂_same.2 fun t ht => ?_
    obtain ⟨l, hl, rfl⟩ := List.mem_map.1 ht
    exact .line (hc l hl) (hc l hl) rfl
  obtain ⟨b, ⟨h, -⟩, -⟩ := SameOutside.intercalate h
  exact h

theorem Kind.ofName_name (k : Kind) : Kind.ofName? k.name = some k := by
  cases k <;> rfl

/-- The fragment of an append step is that of an append action with the configured lines. -/
theorem Fragment.ofStep_append {s : Step} {f : Fragment} (ht : s.type = "append_lines")
    (hf : Fragment.ofStep s = .ok f) :
    ∃ file lines unique enabled, ((s.config.get? "lines").getD .null).lines = .ok lines ∧
      f = ⟨s.type, appendLines file lines unique enabled, Kind.appendLines.commands⟩ := by
  have hk : s.kind? = some .appendLines := by
    rw [Step.kind?, ht]; exact Kind.ofName_name .appendLines
  simp only [Fragment.ofStep, hk, Action.read, Except.map_eq_ok] at hf
  obtain ⟨_, ⟨S, hS, rfl⟩, rfl⟩ := hf
  exact ⟨_, _, _, _, Settings.list_of_read hS rfl, rfl⟩

/-- The block of an append step opens a here-document outside of quotes. What the shell reads there
ends at the last line of the block, and then is the payload, exactly when no payload line that holds
newlines has the marker among its physical lines. Otherwise the rest of the payload is read as code. -/
theorem document_ends_iff {s : Step} {f : Fragment} (ht : s.type = "append_lines")
    (hf : Fragment.ofStep s = .ok f) :
    ∃ lines head tail body rest,
      ((s.config.get? "lines").getD .null).lines = .ok lines ∧
      f.text = head ++ "\ndone <<'" ++ HereDoc.marker lines ++ "'\n" ++ tail ∧
      Quote.outside.after head.toList = .outside ∧
      HereDoc.read (HereDoc.marker lines) tail = some (body, rest) ∧
      (rest = [] ↔ ∀ l ∈ lines, '\n' ∈ l.toList →
        (HereDoc.marker lines).toList ∉ HereDoc.physicalLines l.toList) ∧
      (rest = [] → body = lines.flatMap fun l => l.toList ++ ['\n']) := by
  obtain ⟨file, lines, unique, enabled, hl, rfl⟩ := Fragment.ofStep_append ht hf
  obtain ⟨body, rest, h⟩ := HereDoc.read_payload lines
  exact ⟨lines, _, _, body, rest, hl, Fragment.text_appendLines _ _ _ _ _ _,
    Fragment.after_appendOpening file unique enabled, h⟩

/-- A step that appends the given lines to a file. -/
def appendStep (lines : List String) : Step :=
  { id := "s", name := "n", type := "append_lines",
    config := [("file", .str "/etc/hosts"), ("lines", .arr (lines.map .str))] }

theorem document_ends_iff_two_lines :
    ∃ f lines head tail body rest,
      Fragment.ofStep (appendStep ["INSTALLFORGE_LINES", "a\nb"]) = .ok f ∧
      f.text = head ++ "\ndone <<'" ++ HereDoc.marker lines ++ "'\n" ++ tail ∧
      HereDoc.read (HereDoc.marker lines) tail = some (body, rest) ∧
      (rest = [] ↔ ∀ l ∈ lines, '\n' ∈ l.toList →
        (HereDoc.marker lines).toList ∉ HereDoc.physicalLines l.toList) := by
  obtain ⟨lines, head, tail, body, rest, -, ht, -, hr, hi, -⟩ :=
    document_ends_iff (s := appendStep ["INSTALLFORGE_LINES", "a\nb"]) rfl rfl
  exact ⟨_, lines, head, tail, body, rest, rfl, ht, hr, hi⟩

/-- One payload line of three physical lines, the second of which is the marker: the third is left for
the shell to run. -/
theorem document_ends_early :
    ∃ f head tail,
      Fragment.ofStep (appendStep ["a\nINSTALLFORGE_LINES\nreboot"]) = .ok f ∧
      f.text = head ++ "\ndone <<'" ++ "INSTALLFORGE_LINES" ++ "'\n" ++ tail ∧
      Quote.outside.after head.toList = .outside ∧
      HereDoc.read "INSTALLFORGE_LINES" tail =
        some ("a\n".toList, ["reboot".toList, "INSTALLFORGE_LINES".toList]) := by
  have hm : HereDoc.marker ["a\nINSTALLFORGE_LINES\nreboot"] = "INSTALLFORGE_LINES" := by decide
  have hf : Fragment.ofStep (appendStep ["a\nINSTALLFORGE_LINES\nreboot"]) =
      .ok ⟨"append_lines", Fragment.appendLines "/etc/hosts" ["a\nINSTALLFORGE_LINES\nreboot"] false true,
        Kind.appendLines.commands⟩ := rfl
  have ht := Fragment.text_appendLines "append_lines" "/etc/hosts" ["a\nINSTALLFORGE_LINES\nreboot"]
    false true Kind.appendLines.commands
  rw [hm] at ht
  refine ⟨_, _, _, hf, ht, Fragment.after_appendOpening _ _ _, ?_⟩
  rw [List.cons_append, List.nil_append, String.intercalate_cons_cons, String.intercalate_singleton,
    HereDoc.read, String.toList_append, String.toList_append]
  repeat rw [String.toList_ofList]
  rfl

end Provision
