import Provision.Proofs.Disk.Standing
import Provision.Proofs.Store.Escapes

/-!
# What an answer depends on

The answer to a request for a recipe is told by its bytes (`run_readRecipe_bytes`), and the list of projects by what
each directory in the root adds to it (`answer_projectsIn`), unless a path is too long for the system. So where a disk
has changed but the bytes of the recipes have not, the recipes are answered as they were (`asBefore_loadRecipe`), and
so is the list, however many directories without a recipe there are now (`asBefore_listProjects`).
-/

namespace Provision

namespace Store

variable {α : Type} {needed : List String → Prop} {s : Store} {w w' w₁ : Workspace} {path entry : Path}
  {id x : String} {l : List String} {es : List (String × Node)}

theorem run_readRecipe_tooLong (h : w.disk.TooLong path) :
    (readRecipe path).run w = (.error (.disk (.refused .nameTooLong path.text none)), w) := by
  have hfile : (Disk.isFile path).run w.disk = (.error (.refused .nameTooLong path.text none), w.disk) :=
    run_bind_error (Disk.run_probe_tooLong h)
  rw [readRecipe_eq, run_bind_error (WorkM.run_onDisk_error hfile)]

/-- What a recipe is read as. -/
def readAs (path : Path) (now : Timestamp) : Option ByteArray → Except Failure Recipe
  | none => .error (.store (.recipeNotFound path))
  | some b => parseRecipe path now b

theorem run_readRecipe_bytes (h : ¬ w.disk.TooLong path) :
    (readRecipe path).run w = (readAs path w.now (w.disk.bytesAt path), w) := by
  cases hb : w.disk.bytesAt path with
  | none =>
    have hfile := Disk.run_isFile_of_takes (Disk.takes_of_not_tooLong h)
    rw [hb] at hfile
    rw [readRecipe_eq, run_bind_ok (WorkM.run_onDisk_ok hfile)]
    rfl
  | some b =>
    obtain ⟨l, mode, c, hf, rfl⟩ := Disk.bytesAt_eq_some hb
    rw [run_readRecipe hf, readAs]
    split <;> (rename_i hp; rw [hp])

/-- The project of a recipe. A fault of the store is passed over. -/
def projectOf : Except Failure Recipe → Except Failure (Option Project)
  | .ok r => .ok (some r.project)
  | .error (.store _) => .ok none
  | .error f => .error f

theorem answer_projectIn_tooLong (h : w.disk.TooLong entry) :
    ((projectIn entry).run w).1 = .error (.disk (.refused .nameTooLong entry.text none)) := by
  have hdir : (Disk.isDir entry).run w.disk = (.error (.refused .nameTooLong entry.text none), w.disk) :=
    run_bind_error (Disk.run_probe_tooLong h)
  rw [projectIn, run_bind_error (WorkM.run_onDisk_error hdir)]

theorem answer_projectIn_none (h : ¬ w.disk.TooLong entry) (hdir : ¬ ∃ l es, w.disk.Finds entry (.found l (.dir es))) :
    ((projectIn entry).run w).1 = .ok none := by
  obtain ⟨b, hrun, hb⟩ := Disk.run_isDir_unless_tooLong h
  obtain rfl := Bool.eq_false_iff.2 fun hdirs => hdir (hb.1 hdirs)
  rw [projectIn, run_bind_ok (WorkM.run_onDisk_ok hrun)]
  rfl

theorem answer_projectIn_dir (h : ¬ w.disk.TooLong entry) (hdir : ∃ l es, w.disk.Finds entry (.found l (.dir es))) :
    ((projectIn entry).run w).1 = projectOf ((readRecipe (entry.child Save.recipeFile)).run w).1 := by
  obtain ⟨b, hrun, hb⟩ := Disk.run_isDir_unless_tooLong h
  obtain rfl := hb.2 hdir
  rw [projectIn, run_bind_ok (WorkM.run_onDisk_ok hrun)]
  rcases hread : (readRecipe (entry.child Save.recipeFile)).run w with ⟨f | r, w₁⟩
  · refine (congrArg Prod.fst (run_tryCatch_error (run_map_error some (run_map_error Recipe.project hread)))).trans ?_
    cases f <;> rfl
  · exact congrArg Prod.fst (run_tryCatch_ok (run_map_ok some (run_map_ok Recipe.project hread)))

theorem tooLong_of_logs (h : Workspace.Logs w w₁) : w₁.disk.TooLong path ↔ w.disk.TooLong path :=
  ⟨Disk.tooLong_of_keepsDirs h.disk.cwd.symm h.disk.shape.symm.keepsDirs,
    Disk.tooLong_of_keepsDirs h.disk.cwd h.disk.shape.keepsDirs⟩

theorem dir_of_logs (h : Workspace.Logs w w₁) :
    (∃ l es, w₁.disk.Finds path (.found l (.dir es))) ↔ ∃ l es, w.disk.Finds path (.found l (.dir es)) := by
  constructor <;> rintro ⟨l, es, hf⟩
  · exact ⟨l, hf.dir_of_keepsDirs h.disk.cwd.symm h.disk.shape.symm.keepsDirs⟩
  · exact ⟨l, hf.dir_of_keepsDirs h.disk.cwd h.disk.shape.keepsDirs⟩

theorem answer_readRecipe_of_logs (h : Workspace.Logs w w₁) (hwell : w.disk.WellFormed)
    (hlog : w.disk.held ≠ some (w.disk.placeOf path)) :
    ((readRecipe path).run w₁).1 = ((readRecipe path).run w).1 := by
  by_cases hlong : w.disk.TooLong path
  · rw [run_readRecipe_tooLong hlong, run_readRecipe_tooLong ((tooLong_of_logs h).2 hlong)]
  · rw [run_readRecipe_bytes hlong, run_readRecipe_bytes (mt (tooLong_of_logs h).1 hlong), h.now,
      Disk.bytesAt_of_grown h.disk hwell hlog]

theorem answer_projectIn_of_logs (h : Workspace.Logs w w₁) (hwell : w.disk.WellFormed)
    (hlog : w.disk.held ≠ some (w.disk.placeOf (entry.child Save.recipeFile))) :
    ((projectIn entry).run w₁).1 = ((projectIn entry).run w).1 := by
  by_cases hlong : w.disk.TooLong entry
  · rw [answer_projectIn_tooLong hlong, answer_projectIn_tooLong ((tooLong_of_logs h).2 hlong)]
  · have hlong' := mt (tooLong_of_logs h).1 hlong
    by_cases hdir : ∃ l es, w.disk.Finds entry (.found l (.dir es))
    · rw [answer_projectIn_dir hlong hdir, answer_projectIn_dir hlong' ((dir_of_logs h).2 hdir),
        answer_readRecipe_of_logs h hwell hlog]
    · rw [answer_projectIn_none hlong hdir, answer_projectIn_none hlong' (mt (dir_of_logs h).1 hdir)]

/-- The projects that names add, one after the other, up to the first failure. -/
def gathered (f : String → Except Failure (Option Project)) : List String → Except Failure (List Project)
  | [] => .ok []
  | x :: xs => do return (← f x).toList ++ (← gathered f xs)

theorem answer_projectsIn (hwell : w.disk.WellFormed)
    (hlog : ∀ x, w.disk.held ≠ some (w.disk.placeOf (s.recipePath x))) (xs : List String) :
    ((projectsIn (xs.map s.entryPath)).run w).1 = gathered (fun x => ((projectIn (s.entryPath x)).run w).1) xs := by
  induction xs generalizing w with
  | nil => rfl
  | cons x xs ih =>
    rw [List.map_cons, projectsIn, gathered]
    rcases hone : (projectIn (s.entryPath x)).run w with ⟨f | p, w₁⟩
    · rw [run_bind_error hone]
      rfl
    · have hlogs : Workspace.Logs w w₁ := (logs_projectIn _).of_run hone
      have hsame : (fun x => ((projectIn (s.entryPath x)).run w₁).1) = fun x => ((projectIn (s.entryPath x)).run w).1 :=
        funext fun y => answer_projectIn_of_logs hlogs hwell (hlog y)
      have hrest := ih (w := w₁) (hlogs.disk.wellFormed hwell)
        fun y => by rw [hlogs.held, Disk.placeOf_of_cwd hlogs.disk.cwd]; exact hlog y
      rw [hsame] at hrest
      rw [run_bind_ok hone, ← hrest]
      rcases hps : (projectsIn (xs.map s.entryPath)).run w₁ with ⟨f | ps, w₂⟩
      · rw [run_bind_error hps]
        rfl
      · rw [run_bind_ok hps]
        rfl

/-- The names in a directory, in their order. -/
def names (es : List (String × Node)) : List String :=
  (sortByKey es).map (·.1)

theorem mem_names : x ∈ names es ↔ x ∈ es.map (·.1) :=
  ((sortByKey_perm es).map _).mem_iff

theorem names_eq_filter {es es' : List (String × Node)} {p : String → Bool} (hes : IsKeyed es) (hes' : IsKeyed es')
    (h : ∀ x, x ∈ es.map (·.1) ↔ x ∈ es'.map (·.1) ∧ p x = true) : names es = (names es').filter p := by
  have hsorted : ∀ es : List (String × Node), (names es).Pairwise (· ≤ ·) := fun es =>
    List.pairwise_map.2 (pairwise_sortByKey es)
  have hnodup : ∀ {es : List (String × Node)}, IsKeyed es → (names es).Nodup := isKeyed_sortByKey.2
  have hperm : (names es).Perm ((names es').filter p) := by
    refine (List.perm_ext_iff_of_nodup (hnodup hes) ((hnodup hes').filter p)).2 fun x => ?_
    rw [List.mem_filter, mem_names, mem_names, h]
  exact hperm.eq_of_pairwise (fun _ _ _ _ => String.le_antisymm) (hsorted es) ((hsorted es').filter p)

theorem answer_listProjects_tooLong (h : w.disk.TooLong s.root) :
    (s.listProjects.run w).1 = .error (.disk (.refused .nameTooLong s.root.text none)) := by
  have hdir : (Disk.isDir s.root).run w.disk = (.error (.refused .nameTooLong s.root.text none), w.disk) :=
    run_bind_error (Disk.run_probe_tooLong h)
  rw [listProjects, run_bind_error (WorkM.run_onDisk_error hdir)]

theorem answer_listProjects_none (h : ¬ w.disk.TooLong s.root)
    (hdir : ¬ ∃ l es, w.disk.Finds s.root (.found l (.dir es))) : (s.listProjects.run w).1 = .ok [] := by
  obtain ⟨b, hrun, hb⟩ := Disk.run_isDir_unless_tooLong h
  obtain rfl := Bool.eq_false_iff.2 fun hdirs => hdir (hb.1 hdirs)
  rw [listProjects, run_bind_ok (WorkM.run_onDisk_ok hrun)]
  rfl

theorem answer_listProjects (hwell : w.disk.WellFormed)
    (hlog : ∀ x, w.disk.held ≠ some (w.disk.placeOf (s.recipePath x))) (h : w.disk.Finds s.root (.found l (.dir es))) :
    (s.listProjects.run w).1 = gathered (fun x => ((projectIn (s.entryPath x)).run w).1) (names es) := by
  rw [run_listProjects (Disk.run_isDir_found h) (Disk.run_list h), ← answer_projectsIn hwell hlog, names, List.map_map]
  rfl

/-- A path is refused as too long. -/
def PathTooLong (x : Except Failure α) : Prop :=
  ∃ p : Path, x = .error (.disk (.refused .nameTooLong p.text none))

theorem gathered_filter {f g : String → Except Failure (Option Project)} {known : String → Bool} {xs : List String}
    (h : ∀ x ∈ xs, PathTooLong (f x) ∨ f x = if known x then g x else .ok none) :
    PathTooLong (gathered f xs) ∨ gathered f xs = gathered g (xs.filter known) := by
  induction xs with
  | nil => exact .inr rfl
  | cons x xs ih =>
    obtain ⟨hx, hxs⟩ := List.forall_mem_cons.1 h
    rcases hx with ⟨p, hp⟩ | hx
    · refine .inl ⟨p, ?_⟩
      rw [gathered, hp]
      rfl
    cases hk : known x with
    | false =>
      rw [hk, if_neg Bool.false_ne_true] at hx
      have hskip : gathered f (x :: xs) = gathered f xs := by
        rw [gathered, hx]
        cases gathered f xs <;> rfl
      rw [hskip, List.filter_cons_of_neg (by rw [hk]; exact Bool.false_ne_true)]
      exact ih hxs
    | true =>
      rw [hk, if_pos rfl] at hx
      rw [List.filter_cons_of_pos hk, gathered, gathered, hx]
      cases g x with
      | error f => exact .inr rfl
      | ok o =>
        rcases ih hxs with ⟨p, hp⟩ | hrest
        · refine .inl ⟨p, ?_⟩
          rw [hp]
          rfl
        · rw [hrest]
          exact .inr rfl

/-! ### Answers as before -/

/-- The answer is the one from before, unless a path is refused as too long. -/
def AsBefore (x : StoreM α) (w w' : Workspace) : Prop :=
  PathTooLong (x.run w').1 ∨ (x.run w').1 = (x.run w).1

section

variable (hmakes : Disk.OnlyMakes needed w.disk w'.disk) (hnow : w'.now = w.now)

include hmakes hnow

theorem asBefore_readRecipe (hback : Disk.GoesBack w.disk w'.disk path)
    (hlog : w.disk.held ≠ some (w.disk.placeOf path)) : AsBefore (readRecipe path) w w' := by
  by_cases hlong : w'.disk.TooLong path
  · exact .inl ⟨path, by rw [run_readRecipe_tooLong hlong]⟩
  · have hlong₀ := mt (Disk.tooLong_of_keepsDirs hmakes.cwd hmakes.keepsDirs) hlong
    refine .inr ?_
    rw [run_readRecipe_bytes hlong, run_readRecipe_bytes hlong₀, hnow, hmakes.bytesAt hback hlog]

omit hmakes hnow in
theorem goesBack_recipePath (hback : Disk.GoesBack w.disk w'.disk s.root) (hid : isName id = true) :
    Disk.GoesBack w.disk w'.disk (s.recipePath id) := by
  have hfile := Save.isEntry_recipeFile.single
  by_cases hdot : id = "."
  · have hpath : s.recipePath id = s.root.child Save.recipeFile := by
      rw [recipePath, entryPath, hdot, Path.child_dot]
    rw [hpath]
    exact hback.child hfile (by decide)
  · obtain ⟨hsingle, hdots⟩ := single_of_isName hid hdot
    exact (hback.child hsingle hdots).child hfile (by decide)

theorem asBefore_loadRecipe (hback : Disk.GoesBack w.disk w'.disk s.root)
    (hlog : w.disk.held ≠ some (w.disk.placeOf (s.recipePath id))) : AsBefore (s.loadRecipe id) w w' := by
  by_cases hid : isName id = true
  · rw [AsBefore, loadRecipe, run_bind_ok (run_checkName hid w), run_bind_ok (run_checkName hid w')]
    exact asBefore_readRecipe hmakes hnow (goesBack_recipePath hback hid) hlog
  · refine .inr ?_
    rw [loadRecipe, checkName, if_neg hid]
    rfl

theorem asBefore_projectIn (hback : Disk.GoesBack w.disk w'.disk entry)
    (hlog : w.disk.held ≠ some (w.disk.placeOf (entry.child Save.recipeFile)))
    (hknown : ∀ l n, w'.disk.Finds entry (.found l n) → (w.disk.root.get? l).isSome = true) :
    AsBefore (projectIn entry) w w' := by
  by_cases hlong : w'.disk.TooLong entry
  · exact .inl ⟨entry, answer_projectIn_tooLong hlong⟩
  have hlong₀ := mt (Disk.tooLong_of_keepsDirs hmakes.cwd hmakes.keepsDirs) hlong
  by_cases hdir : ∃ l es, w'.disk.Finds entry (.found l (.dir es))
  · obtain ⟨l, es, hf⟩ := hdir
    obtain ⟨n, hn⟩ := Option.isSome_iff_exists.1 (hknown l _ hf)
    obtain ⟨es₀, rfl⟩ := hmakes.dir_of_dir (Disk.get_of_walk hf.leads) hn
    have hf₀ := hback l _ _ hf hn
    rw [AsBefore, answer_projectIn_dir hlong ⟨l, es, hf⟩, answer_projectIn_dir hlong₀ ⟨l, es₀, hf₀⟩]
    rcases asBefore_readRecipe hmakes hnow (hback.child Save.isEntry_recipeFile.single (by decide)) hlog with
      ⟨p, hp⟩ | hsame
    · exact .inl ⟨p, by rw [hp]; rfl⟩
    · exact .inr (by rw [hsame])
  · have hdir₀ : ¬ ∃ l es, w.disk.Finds entry (.found l (.dir es)) := by
      rintro ⟨l, es, hf⟩
      exact hdir ⟨l, hf.dir_of_keepsDirs hmakes.cwd hmakes.keepsDirs⟩
    rw [AsBefore, answer_projectIn_none hlong hdir, answer_projectIn_none hlong₀ hdir₀]
    exact .inr rfl

omit hnow in
theorem answer_projectIn_new (hroot : w'.disk.LeadsTo s.root l) (hs : Path.IsSingle x) (hd : x ≠ "..")
    (hnew : w.disk.root.get? (l ++ [x]) = none) :
    PathTooLong ((projectIn (s.entryPath x)).run w').1 ∨ ((projectIn (s.entryPath x)).run w').1 = .ok none := by
  by_cases hlong : w'.disk.TooLong (s.entryPath x)
  · exact .inl ⟨_, answer_projectIn_tooLong hlong⟩
  by_cases hdir : ∃ l es, w'.disk.Finds (s.entryPath x) (.found l (.dir es))
  · rw [answer_projectIn_dir hlong hdir]
    by_cases hrecipe : w'.disk.TooLong ((s.entryPath x).child Save.recipeFile)
    · exact .inl ⟨(s.entryPath x).child Save.recipeFile, by rw [run_readRecipe_tooLong hrecipe]; rfl⟩
    · refine .inr ?_
      have hbytes : w'.disk.bytesAt ((s.entryPath x).child Save.recipeFile) = none := by
        cases hb : w'.disk.bytesAt ((s.entryPath x).child Save.recipeFile) with
        | none => rfl
        | some b =>
          obtain ⟨l', mode, c, hf, -⟩ := Disk.bytesAt_eq_some hb
          have hbelow := ((Disk.Below.refl s.root).child hs hd).child Save.isEntry_recipeFile.single (by decide)
          have hplace : l' = l ++ [x] ++ [Save.recipeFile] :=
            (Disk.place_of_below hroot hbelow hf.leads).trans (List.append_assoc _ _ _).symm
          obtain ⟨c₀, hfile⟩ := hmakes.file_of_file (Disk.get_of_walk hf.leads)
          rw [hplace, Node.get_append, hnew] at hfile
          cases hfile
      rw [run_readRecipe_bytes hrecipe, hbytes]
      rfl
  · exact .inr (answer_projectIn_none hlong hdir)

omit hnow in
/-- The entries that are listed are those that were there, where the root was a directory at all. -/
theorem answer_listProjects_before (hsane : w.disk.Sane) (hkeyed : w'.disk.root.Keyed)
    (hback : Disk.GoesBack w.disk w'.disk s.root) (hlog : ∀ x, w.disk.held ≠ some (w.disk.placeOf (s.recipePath x)))
    (hlong : ¬ w.disk.TooLong s.root) (hroot : w'.disk.Finds s.root (.found l (.dir es))) :
    (s.listProjects.run w).1 = gathered (fun x => ((projectIn (s.entryPath x)).run w).1)
      ((names es).filter fun x => (w.disk.root.get? (l ++ [x])).isSome) := by
  by_cases hdir : ∃ l es, w.disk.Finds s.root (.found l (.dir es))
  · obtain ⟨l₀, es₀, hf⟩ := hdir
    obtain ⟨es₁, hf₁⟩ := hf.dir_of_keepsDirs hmakes.cwd hmakes.keepsDirs
    cases hroot.unique hf₁
    have hes₀ := Disk.get_of_walk hf.leads
    have hes := Disk.get_of_walk hroot.leads
    rw [answer_listProjects hsane.wellFormed hlog hf, names_eq_filter (hsane.tree.keyed _ _ hes₀) (hkeyed _ _ hes)]
    intro x
    have hmem : ∀ {n : Node} {es : List (String × Node)}, n.get? l = some (.dir es) →
        (x ∈ es.map (·.1) ↔ (n.get? (l ++ [x])).isSome = true) := fun hn => by
      rw [Node.get_concat_of_dir hn, ← not_iff_not, ← lookup_eq_none, Bool.not_eq_true, Option.isSome_eq_false_iff,
        Option.isNone_iff_eq_none]
    rw [hmem hes₀, hmem hes]
    exact ⟨fun h => ⟨hmakes.isSome h, h⟩, fun h => h.2⟩
  · rw [answer_listProjects_none hlong hdir, List.filter_eq_nil_iff.2]
    · rfl
    · intro x _ hknown
      obtain ⟨es₀, hes₀⟩ := Node.isDir_of_get_append hknown (List.cons_ne_nil x [])
      exact hdir ⟨l, es₀, hback l _ _ hroot hes₀⟩

theorem asBefore_listProjects (hsane : w.disk.Sane) (hsane' : w'.disk.Sane)
    (hback : Disk.GoesBack w.disk w'.disk s.root) (hlog : ∀ x, w.disk.held ≠ some (w.disk.placeOf (s.recipePath x))) :
    AsBefore s.listProjects w w' := by
  by_cases hlong : w'.disk.TooLong s.root
  · exact .inl ⟨s.root, answer_listProjects_tooLong hlong⟩
  have hlong₀ := mt (Disk.tooLong_of_keepsDirs hmakes.cwd hmakes.keepsDirs) hlong
  by_cases hdir : ∃ l es, w'.disk.Finds s.root (.found l (.dir es))
  · obtain ⟨l, es', hroot⟩ := hdir
    have hlog' : ∀ x, w'.disk.held ≠ some (w'.disk.placeOf (s.recipePath x)) := fun x hheld =>
      hlog x (Disk.placeOf_of_cwd hmakes.cwd _ ▸ hmakes.held _ hheld)
    have hentry : ∀ x ∈ names es', Path.IsEntry x := fun x hx =>
      (hsane'.tree l es' (Disk.get_of_walk hroot.leads)).2 x (mem_names.1 hx)
    rw [AsBefore, answer_listProjects_before hmakes hsane hsane'.tree.keyed hback hlog hlong₀ hroot,
      answer_listProjects hsane'.wellFormed hlog' hroot]
    refine gathered_filter fun x hx => ?_
    obtain ⟨hs, hd⟩ : Path.IsSingle x ∧ x ≠ ".." := ⟨(hentry x hx).single, (hentry x hx).plain.ne_dots⟩
    cases hknown : w.disk.root.get? (l ++ [x]) with
    | none => exact answer_projectIn_new hmakes ⟨es', hroot.leads⟩ hs hd hknown
    | some n =>
      refine asBefore_projectIn hmakes hnow (hback.child hs hd) (hlog x) fun l' n' hf => ?_
      have hplace : l' = l ++ [x] :=
        Disk.place_of_below ⟨es', hroot.leads⟩ ((Disk.Below.refl s.root).child hs hd) hf.leads
      rw [hplace, hknown]
      rfl
  · have hdir₀ : ¬ ∃ l es, w.disk.Finds s.root (.found l (.dir es)) := by
      rintro ⟨l, es, hf⟩
      exact hdir ⟨l, hf.dir_of_keepsDirs hmakes.cwd hmakes.keepsDirs⟩
    rw [AsBefore, answer_listProjects_none hlong hdir, answer_listProjects_none hlong₀ hdir₀]
    exact .inr rfl

end

end Store

end Provision
