import Provision.Proofs.Disk.Bytes
import Provision.Proofs.Disk.Sanity
import Provision.Proofs.Store.Refinement

/-!
# Listing projects among broken ones

`list_reads_recipes`: the projects that are listed are those whose recipe files hold recipes, and a recipe that is
loaded by its id is the one in the file, whatever the files of the store hold. A file that holds no recipe is passed
over, and a fault of the store where it is loaded. This is so unless the bytes of a file are no text, or the
text has a number or a nesting that is beyond the reader (`unreadable?`): then neither listing nor loading
answers for the store.
-/

namespace Provision.Store

/-- What stands behind the root in the path of a recipe: two slashes, an id and the name of the file. -/
def roomToRecipe : Nat := Disk.longestName + 13

variable {s : Store} {w w' : Workspace} {path : Path} {id name : String} {now : Timestamp} {b : ByteArray}
  {f : Failure} {files : List ByteArray} {l names : List String} {k : Nat}

/-- The recipe that bytes are: a text, which is JSON, which is a recipe. -/
def recipeOf? (now : Timestamp) (bytes : ByteArray) : Option Recipe := do
  let text ← String.fromUTF8? bytes
  let v ← (Json.read .standard text).toOption
  (Recipe.ofJson now v).toExcept.toOption

/-- What keeps bytes from being read at all. -/
def unreadable? (bytes : ByteArray) (room : Room := .standard) : Option Failure :=
  match String.fromUTF8? bytes with
  | none => some .encoding
  | some text =>
    match Json.read (.within room.reading) text with
    | .error .tooManyDigits => some .digits
    | .error .tooDeep => some .nesting
    | _ => none

/-- The answer to a request for the recipe in a file, if there is one: the recipe that it holds, and a fault of
the store where there is none. Bytes that cannot be read have failures of their own. -/
structure Answers (now : Timestamp) (file : Option ByteArray) (x : Except Failure Recipe) : Prop where
  recipe : ∀ b r, file = some b → recipeOf? now b = some r → x = .ok r
  unread : ∀ b f, file = some b → unreadable? b = some f → x = .error f
  fault : (∀ b, file = some b → unreadable? b = none ∧ recipeOf? now b = none) → ∃ fault, x = .error (.store fault)

/-- The projects of the recipes in files, unless one of the files cannot be read. -/
def listed (now : Timestamp) (files : List ByteArray) : Except Failure (List Project) :=
  match files.findSome? unreadable? with
  | some f => .error f
  | none => .ok (files.filterMap fun b => (recipeOf? now b).map Recipe.project)

theorem not_store_of_unreadable {room : Room} (h : unreadable? b room = some f) : f.isStoreFault = false := by
  unfold unreadable? at h
  split at h
  · cases h; rfl
  · split at h <;> cases h <;> rfl

/-- What a file adds to the list, if there is one. -/
def listedOne (now : Timestamp) (file : Option ByteArray) : Except Failure (Option Project) :=
  match file.bind unreadable? with
  | some f => .error f
  | none => .ok ((file.bind (recipeOf? now)).map Recipe.project)

theorem listed_cons {α : Type} (file : α → Option ByteArray) (x : α) (xs : List α) :
    listed now ((x :: xs).filterMap file) =
      listedOne now (file x) >>= fun p => (listed now (xs.filterMap file)).map (p.toList ++ ·) := by
  rw [List.filterMap_cons]
  cases hx : file x with
  | none =>
    cases h : listed now (xs.filterMap file) <;> rfl
  | some b =>
    simp only [listed, listedOne, Option.bind_some, List.findSome?_cons, List.filterMap_cons]
    cases unreadable? b with
    | some f => rfl
    | none =>
      cases (xs.filterMap file).findSome? unreadable? with
      | some f => rfl
      | none => cases recipeOf? now b <;> rfl

theorem answers_missing (fault : StoreFault) : Answers now none (.error (.store fault)) :=
  ⟨nofun, nofun, fun _ => ⟨fault, rfl⟩⟩

theorem answers_parse (path : Path) (now : Timestamp) (bytes : ByteArray) :
    Answers now (some bytes) (parseRecipe path now bytes) := by
  suffices h : (∀ r, recipeOf? now bytes = some r → parseRecipe path now bytes = .ok r) ∧
      (∀ f, unreadable? bytes = some f → parseRecipe path now bytes = .error f) ∧
      (unreadable? bytes = none → recipeOf? now bytes = none →
        ∃ fault, parseRecipe path now bytes = .error (.store fault)) by
    obtain ⟨hrecipe, hunread, hfault⟩ := h
    refine ⟨?_, ?_, fun h => hfault (h _ rfl).1 (h _ rfl).2⟩
    · rintro _ r ⟨⟩ hr
      exact hrecipe r hr
    · rintro _ f ⟨⟩ hf
      exact hunread f hf
  simp only [unreadable?, recipeOf?, parseRecipe]
  cases String.fromUTF8? bytes with
  | none => simp
  | some text =>
    cases hv : Json.read .standard text with
    | error e => cases e <;> simp [hv, Except.toOption]
    | ok v => cases hr : Recipe.ofJson now v <;> simp [hv, hr, Except.toOption, Checked.toExcept]

theorem recipeOf_of_parse {r : Recipe} (h : parseRecipe path now b = .ok r) :
    unreadable? b = none ∧ recipeOf? now b = some r := by
  have hanswer := answers_parse path now b
  rw [h] at hanswer
  cases hun : unreadable? b with
  | some f => cases hanswer.unread b f rfl hun
  | none =>
    cases hr : recipeOf? now b with
    | some r' =>
      cases hanswer.recipe b r' rfl hr
      exact ⟨rfl, rfl⟩
    | none =>
      obtain ⟨fault, hx⟩ := hanswer.fault fun _ hb => Option.some.inj hb ▸ ⟨hun, hr⟩
      cases hx

theorem answers_readRecipe (h : path.hasNul = false → w.disk.Takes path) :
    Answers w.now (w.disk.bytesAt path) ((readRecipe path).run w).1 := by
  cases hb : w.disk.bytesAt path with
  | none =>
    have hfile := Disk.run_isFile_of_takes h
    rw [hb] at hfile
    rw [readRecipe_eq, run_bind_ok (WorkM.run_onDisk_ok hfile)]
    exact answers_missing _
  | some bytes =>
    obtain ⟨l, mode, c, hf, rfl⟩ := Disk.bytesAt_eq_some hb
    rw [run_readRecipe hf]
    have hparse := answers_parse path w.now c.toBytes
    cases hp : parseRecipe path w.now c.toBytes <;> rwa [hp] at hparse

theorem answers_loadRecipe (hroom : s.root.Room roomToRecipe) (htakes : w.disk.Takes s.root) (hid : isName id = true)
    (hsize : id.utf8ByteSize ≤ Disk.longestName) :
    Answers w.now (w.disk.bytesAt (s.recipePath id)) ((s.loadRecipe id).run w).1 := by
  rw [loadRecipe, run_bind_ok (run_checkName hid w)]
  refine answers_readRecipe fun hnul => ?_
  have hfile := Save.isEntry_recipeFile
  by_cases hdot : id = "."
  · have hpath : s.recipePath id = s.root.child Save.recipeFile := by
      rw [recipePath, entryPath, hdot, Path.child_dot]
    rw [hpath]
    exact htakes.child hroom (Path.Room.child (k := 0) (hroom.mono (by decide)) hfile) hfile.single (by decide)
  · obtain ⟨hsingle, hdots⟩ := single_of_isName hid hdot
    have hentry : Path.IsEntry id := by
      refine ⟨hsingle, ⟨hdots, hsize⟩, ?_⟩
      have hnul' := Path.noNul_of_child hfile.single hnul
      rw [entryPath, Path.hasNul, Path.names_child _ hsingle, List.any_append, Bool.or_eq_false_iff] at hnul'
      simpa using hnul'.2
    have hroom' : (s.entryPath id).Room 12 := (hroom.mono (by unfold roomToRecipe; omega)).child hentry
    exact (htakes.child hroom hroom' hsingle hsize).child hroom'
      (Path.Room.child (k := 0) (hroom'.mono (by decide)) hfile) hfile.single (by decide)

/-! ### Listing -/

theorem run_projectIn (hroom : path.Room k) (htakes : w.disk.Takes path)
    (hrecipe : w.disk.Takes (path.child Save.recipeFile)) :
    let file := w.disk.bytesAt (path.child Save.recipeFile)
    ∃ w', Workspace.Logs w w' ∧ (projectIn path).run w = (listedOne w.now file, w') := by
  intro file
  have hfile := Save.isEntry_recipeFile
  obtain ⟨isDir, hdir, hiff⟩ := Disk.run_isDir_of_takes hroom.noNul htakes
  rw [projectIn, run_bind_ok (WorkM.run_onDisk_ok hdir)]
  cases isDir with
  | false =>
    have hnone : file = none :=
      Disk.bytesAt_child_none hroom hfile.single (by decide) fun h => Bool.false_ne_true (hiff.2 h)
    rw [hnone]
    exact ⟨w, .refl w, rfl⟩
  | true =>
    have hanswer : Answers w.now file ((readRecipe (path.child Save.recipeFile)).run w).1 :=
      answers_readRecipe fun _ => hrecipe
    have hread : (readRecipe (path.child Save.recipeFile)).run w =
        (((readRecipe (path.child Save.recipeFile)).run w).1, w) := Prod.ext rfl (readOnly_readRecipe _ w)
    generalize ((readRecipe (path.child Save.recipeFile)).run w).1 = x at hanswer hread
    have hfailed : ∀ f, x = .error f → (Recipe.project <$> readRecipe (path.child Save.recipeFile)).run w =
        (.error f, w) := fun f hx => run_map_error _ (hx ▸ hread)
    rw [listedOne]
    cases hun : file.bind unreadable? with
    | some f =>
      obtain ⟨b, hb, hf⟩ := Option.bind_eq_some_iff.1 hun
      have hnot := not_store_of_unreadable hf
      refine ⟨w, .refl w, (run_tryCatch_error (run_map_error some (hfailed f (hanswer.unread b f hb hf)))).trans ?_⟩
      cases f with
      | store fault => cases hnot
      | _ => rfl
    | none =>
      cases hr : file.bind (recipeOf? w.now) with
      | some r =>
        obtain ⟨b, hb, hr⟩ := Option.bind_eq_some_iff.1 hr
        obtain rfl := hanswer.recipe b r hb hr
        exact ⟨w, .refl w, run_tryCatch_ok (run_map_ok some (run_map_ok Recipe.project hread))⟩
      | none =>
        obtain ⟨fault, hx⟩ := hanswer.fault fun b hb =>
          ⟨Option.bind_eq_none_iff.1 hun b hb, Option.bind_eq_none_iff.1 hr b hb⟩
        exact ⟨_, Workspace.logs_emit w _, run_tryCatch_error (run_map_error some (hfailed _ hx))⟩

theorem run_projectsIn {xs : List String} (hroom : s.root.Room roomToRecipe) (hleads : w.disk.LeadsTo s.root l)
    (hwell : w.disk.WellFormed) (hlog : ∀ x, w.disk.held ≠ some (w.disk.placeOf (s.recipePath x)))
    (hxs : ∀ x ∈ xs, Path.IsEntry x) :
    ((projectsIn (xs.map s.entryPath)).run w).1 =
      listed w.now (xs.filterMap fun x => w.disk.bytesAt (s.recipePath x)) := by
  induction xs generalizing w with
  | nil => rfl
  | cons x xs ih =>
    obtain ⟨hx, hxs⟩ := List.forall_mem_cons.1 hxs
    have hfile := Save.isEntry_recipeFile
    have hsize := hx.plain.size
    have hroom' : (s.entryPath x).Room 12 :=
      (hroom.mono (by unfold roomToRecipe; omega)).child hx
    have htakes := (hleads.takes hroom).child hroom hroom' hx.single hsize
    have hrecipe := htakes.child hroom' (Path.Room.child (k := 0) (hroom'.mono (by decide)) hfile) hfile.single
      (by decide)
    obtain ⟨w₁, hlogs, hrun⟩ := run_projectIn hroom' htakes hrecipe
    have hrest := ih (w := w₁) (hlogs.disk.leadsTo hleads) (hlogs.disk.wellFormed hwell)
      (fun x => by rw [hlogs.held, Disk.placeOf_of_cwd hlogs.disk.cwd]; exact hlog x) hxs
    have hsame : ∀ x, w₁.disk.bytesAt (s.recipePath x) = w.disk.bytesAt (s.recipePath x) :=
      fun x => Disk.bytesAt_of_grown hlogs.disk hwell (hlog x)
    simp only [hsame, hlogs.now] at hrest
    rw [List.map_cons, projectsIn, listed_cons, ← hrest]
    change (projectIn (s.entryPath x)).run w = (listedOne w.now (w.disk.bytesAt (s.recipePath x)), w₁) at hrun
    cases hone : listedOne w.now (w.disk.bytesAt (s.recipePath x)) with
    | error f =>
      rw [hone] at hrun
      rw [run_bind_error hrun]
      rfl
    | ok p =>
      rw [hone] at hrun
      rw [run_bind_ok hrun]
      rcases hps : (projectsIn (xs.map s.entryPath)).run w₁ with ⟨f | ps, w₂⟩
      · rw [run_bind_error hps]
        rfl
      · rw [run_bind_ok hps]
        rfl

theorem listProjects_eq (hroom : s.root.Room roomToRecipe) (htakes : w.disk.Takes s.root) (hsane : w.disk.Sane)
    (hlog : ∀ x, w.disk.held ≠ some (w.disk.placeOf (s.recipePath x))) :
    ((s.listProjects).run w).1 = listed w.now
      ((sortByKey (w.disk.entriesAt s.root)).filterMap fun e => w.disk.bytesAt (s.recipePath e.1)) := by
  obtain ⟨isDir, hdir, hiff⟩ := Disk.run_isDir_of_takes hroom.noNul htakes
  cases isDir with
  | false =>
    have hnone : w.disk.entriesAt s.root = [] := by
      rw [Disk.entriesAt]
      cases hs : w.disk.shown s.root with
      | error e => rfl
      | ok n =>
        cases n with
        | file mode c => rfl
        | dir es => exact absurd (hiff.2 ⟨es, hs⟩) Bool.false_ne_true
    rw [listProjects, run_bind_ok (WorkM.run_onDisk_ok hdir), hnone, sortByKey, List.mergeSort_nil]
    rfl
  | true =>
    obtain ⟨es, hes⟩ := hiff.1 rfl
    obtain ⟨l, hf⟩ := Disk.finds_of_shown hroom.noNul hes
    have hentries : w.disk.entriesAt s.root = es := by rw [Disk.entriesAt, hes]; rfl
    have hnames : ∀ x ∈ (sortByKey es).map (·.1), Path.IsEntry x := by
      intro x hx
      obtain ⟨e, he, rfl⟩ := List.mem_map.1 hx
      exact (hsane.tree l es (Disk.get_of_walk hf.leads)).2 _ (List.mem_map.2 ⟨e, mem_sortByKey.1 he, rfl⟩)
    have hlisted := run_projectsIn hroom ⟨es, hf.leads⟩ hsane.wellFormed hlog hnames
    rw [List.map_map, List.filterMap_map] at hlisted
    rw [run_listProjects hdir (Disk.run_list hf), hentries]
    exact hlisted

/-- Projects are listed by the recipes in their files, in the order of the names of their directories, and
a recipe is loaded as its file holds it; what is missing or broken is passed over, or a fault of the store. But
a file that cannot be read stops the listing of all projects, and loading it is no fault of the store. -/
theorem list_reads_recipes {s : Store} {w : Workspace} (hroom : s.root.Room roomToRecipe) (htakes : w.disk.Takes s.root)
    (hsane : w.disk.Sane) (hlog : ∀ x, w.disk.held ≠ some (w.disk.placeOf (s.recipePath x))) :
    ((s.listProjects).run w).1 = listed w.now
      ((sortByKey (w.disk.entriesAt s.root)).filterMap fun e => w.disk.bytesAt (s.recipePath e.1)) ∧
    ∀ id, isName id = true → id.utf8ByteSize ≤ Disk.longestName →
      Answers w.now (w.disk.bytesAt (s.recipePath id)) ((s.loadRecipe id).run w).1 :=
  ⟨listProjects_eq hroom htakes hsane hlog, fun _ hid hsize => answers_loadRecipe hroom htakes hid hsize⟩

theorem bytesAt_recipePath {es es' : List (String × Node)} {x : String} {mode : Nat} {c : Content}
    (hroom : s.root.Room roomToRecipe) (hroot : w.disk.Finds s.root (.found l (.dir es))) (hx : Path.IsEntry x)
    (hentry : es.lookup x = some (.dir es')) (hfile : es'.lookup Save.recipeFile = some (.file mode c)) :
    w.disk.bytesAt (s.recipePath x) = some c.toBytes := by
  have hsize := hx.plain.size
  have hroom' : (s.entryPath x).Room 12 := (hroom.mono (by unfold roomToRecipe; omega)).child hx
  have hdir : w.disk.Finds (s.entryPath x) _ := hroot.entry_some hx hroom' hentry
  exact (hdir.entry_some Save.isEntry_recipeFile
    (Path.Room.child (k := 0) (hroom'.mono (by decide)) Save.isEntry_recipeFile) hfile).bytesAt

/-- Two projects with the bytes for their recipes. -/
def twoRecipes (a b : ByteArray) : Workspace :=
  sampleWorkspace [("projects", .dir [
    ("a", .dir [(Save.recipeFile, .file 0o644 (.bytes a))]),
    ("b", .dir [(Save.recipeFile, .file 0o644 (.bytes b))])])]

def projectStore : Store := ⟨⟨.relative, ["projects"]⟩⟩

section

variable (a b : ByteArray)

theorem finds_projects : (twoRecipes a b).disk.Finds projectStore.root (.found ["projects"] (.dir [
    ("a", .dir [(Save.recipeFile, .file 0o644 (.bytes a))]),
    ("b", .dir [(Save.recipeFile, .file 0o644 (.bytes b))])])) :=
  ⟨by decide, by decide, rfl⟩

theorem room_projectStore : projectStore.root.Room roomToRecipe := ⟨by decide, by decide⟩

theorem held_twoRecipes (l : List String) : (twoRecipes a b).disk.held ≠ some l := by
  intro h
  cases h

theorem isEntry_twoRecipes : ∀ x ∈ ["projects", "a", "b", Save.recipeFile], Path.IsEntry x := by
  simp only [List.forall_mem_cons, List.not_mem_nil, false_imp_iff, implies_true, and_true]
  refine ⟨?_, ?_, ?_, Save.isEntry_recipeFile⟩ <;>
    exact ⟨⟨by simp, by decide, by decide⟩, ⟨by decide, by decide⟩, by decide⟩

theorem takes_projects : (twoRecipes a b).disk.Takes projectStore.root :=
  Disk.LeadsTo.takes ⟨_, (finds_projects a b).leads⟩ room_projectStore

theorem bytesAt_a : (twoRecipes a b).disk.bytesAt (projectStore.recipePath "a") = some a :=
  bytesAt_recipePath room_projectStore (finds_projects a b) (isEntry_twoRecipes "a" (by simp)) rfl rfl

theorem bytesAt_b : (twoRecipes a b).disk.bytesAt (projectStore.recipePath "b") = some b :=
  bytesAt_recipePath room_projectStore (finds_projects a b) (isEntry_twoRecipes "b" (by simp)) rfl rfl

theorem files_twoRecipes :
    (sortByKey ((twoRecipes a b).disk.entriesAt projectStore.root)).filterMap
      (fun e => (twoRecipes a b).disk.bytesAt (projectStore.recipePath e.1)) = [a, b] := by
  have hle : decide ("a" ≤ "b") = true := by decide
  rw [Disk.entriesAt, (finds_projects a b).shown]
  dsimp only [Node.entries]
  rw [sortByKey, List.mergeSort_of_pairwise (List.pairwise_pair.2 hle)]
  simp only [List.filterMap_cons, bytesAt_a, bytesAt_b, List.filterMap_nil]

theorem sane_twoRecipes : (twoRecipes a b).disk.Sane := by
  have hdir := Node.isTree_dir_of_mem isEntry_twoRecipes
  have hproject : ∀ bytes, (Node.dir [(Save.recipeFile, .file 0o644 (.bytes bytes))]).IsTree := fun bytes =>
    hdir _ (by simp [IsKeyed]) (by simp) (by simpa using Node.isTree_file _ _)
  have hroot := hdir [("a", _), ("b", _)] (by simp [IsKeyed]) (by simp) (by simpa using ⟨hproject a, hproject b⟩)
  exact ⟨wellFormed_sampleWorkspace _, hdir [("projects", _)] (by simp [IsKeyed]) (by simp) (by simpa using hroot)⟩

end

def sampleProject : Recipe := Recipe.starter "b" "demo" .epoch

theorem reads_sampleProject (now : Timestamp) :
    unreadable? sampleProject.fileText.toUTF8 = none ∧
      recipeOf? now sampleProject.fileText.toUTF8 = some sampleProject.ordered := by
  have hstorable : sampleProject.IsStorable :=
    ⟨rfl, ⟨by simp [sampleProject, Recipe.starter, IsKeyed], nofun⟩, nofun, nofun⟩
  exact recipeOf_of_parse (parse_fileText hstorable ⟨.relative, []⟩ now)

/-- An empty file among the recipes is passed over. -/
theorem list_reads_recipes_broken :
    ((projectStore.listProjects).run (twoRecipes .empty sampleProject.fileText.toUTF8)).1 =
        .ok [sampleProject.project] ∧
      ∃ fault, ((projectStore.loadRecipe "a").run (twoRecipes .empty sampleProject.fileText.toUTF8)).1 =
        .error (.store fault) := by
  have hempty : unreadable? .empty = none ∧ recipeOf? .epoch .empty = none := by
    have htext : String.fromUTF8? .empty = some "" := rfl
    have hread : Json.read .standard "" = .error .malformed := by simp [Json.read, Json.run]
    exact ⟨by simp only [unreadable?, htext, hread], by simp [recipeOf?, htext, hread, Except.toOption]⟩
  have hall : ∀ broken good, unreadable? broken = none ∧ recipeOf? .epoch broken = none →
      unreadable? good = none ∧ recipeOf? .epoch good = some sampleProject.ordered →
      ((projectStore.listProjects).run (twoRecipes broken good)).1 = .ok [sampleProject.project] ∧
        ∃ fault, ((projectStore.loadRecipe "a").run (twoRecipes broken good)).1 = .error (.store fault) := by
    rintro broken good hbroken ⟨hgood, hproject⟩
    obtain ⟨hlist, hload⟩ := list_reads_recipes room_projectStore (takes_projects broken good)
      (sane_twoRecipes broken good) fun _ => held_twoRecipes broken good _
    refine ⟨hlist.trans ?_, (hload "a" (by decide) (by decide)).fault fun b hb => ?_⟩
    · rw [files_twoRecipes]
      change listed .epoch [broken, good] = _
      simp only [listed, List.findSome?_cons, List.findSome?_nil, hbroken, hgood, List.filterMap_cons, hproject]
      rfl
    · cases (bytesAt_a broken good).symm.trans hb
      exact hbroken
  exact hall _ _ hempty (reads_sampleProject .epoch)

/-- Bytes that are no text hide the project beside them, and loading them is no fault of the store. -/
theorem encoding_hides_project :
    ((projectStore.listProjects).run (twoRecipes ⟨#[0xff]⟩ sampleProject.fileText.toUTF8)).1 = .error .encoding ∧
      ((projectStore.loadRecipe "a").run (twoRecipes ⟨#[0xff]⟩ sampleProject.fileText.toUTF8)).1 =
        .error .encoding ∧
      ((projectStore.loadRecipe "b").run (twoRecipes ⟨#[0xff]⟩ sampleProject.fileText.toUTF8)).1 =
        .ok sampleProject.ordered := by
  have hall : ∀ broken good, unreadable? broken = some .encoding →
      recipeOf? .epoch good = some sampleProject.ordered →
      ((projectStore.listProjects).run (twoRecipes broken good)).1 = .error .encoding ∧
        ((projectStore.loadRecipe "a").run (twoRecipes broken good)).1 = .error .encoding ∧
        ((projectStore.loadRecipe "b").run (twoRecipes broken good)).1 = .ok sampleProject.ordered := by
    intro broken good hbroken hproject
    have htakes := takes_projects broken good
    refine ⟨?_, (answers_loadRecipe room_projectStore htakes (by decide) (by decide)).unread _ _
      (bytesAt_a broken good) hbroken, (answers_loadRecipe room_projectStore htakes (by decide) (by decide)).recipe
        _ _ (bytesAt_b broken good) hproject⟩
    refine (listProjects_eq room_projectStore htakes (sane_twoRecipes broken good)
      fun _ => held_twoRecipes broken good _).trans ?_
    rw [files_twoRecipes]
    simp only [listed, List.findSome?_cons, hbroken]
  exact hall _ _ rfl (reads_sampleProject .epoch).2

end Provision.Store
