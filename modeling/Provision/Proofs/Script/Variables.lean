import Provision.Proofs.Keyed
import Provision.Proofs.Outcome
import Provision.Script.Artifacts

/-!
# The order of variables

A script assigns its variables in the order of the recipe. A name has no colon, so the text of the assignments tells
the names in their order: the variables sorted by name give another script, unless those that are assigned stood in
that order already (`Installer.script_sortByKey_iff`).
-/

namespace Provision

open Shell

variable {vars vars' : List (String × String)} {name name' value value' : String}

namespace Shell

theorem noColon_of_isIdentifier {cs : List Char} (h : isIdentifier cs = true) : ':' ∉ cs := by
  intro hmem
  cases cs with
  | nil => cases hmem
  | cons c cs =>
    rw [isIdentifier, Bool.and_eq_true, List.all_eq_true] at h
    rcases List.mem_cons.1 hmem with rfl | hmem
    · exact absurd h.1 (by decide)
    · exact absurd (h.2 _ hmem) (by decide)

theorem noColon_of_isName (h : isName name = true) : ':' ∉ name.toList := by
  have hchomped := noColon_of_isIdentifier h
  intro hmem
  rw [chomp] at hchomped
  split at hchomped
  · rename_i hlast
    have hsplit := List.dropLast_append_getLast? _ hlast
    rw [← hsplit, List.mem_append, List.mem_singleton] at hmem
    exact hmem.elim hchomped (by decide)
  · exact hchomped hmem

end Shell

namespace Installer

/-- The variables that a script assigns. -/
def assigned (vars : List (String × String)) : List (String × String) :=
  vars.filter fun v => isName v.1

/-- The text that assigns variables. -/
def assignments (vars : List (String × String)) : String :=
  "\n".intercalate (vars.flatMap fun v => assignment v.1 v.2)

theorem varsSection_eq (vars : List (String × String)) :
    varsSection vars = assignments (assigned (withLogDir vars)) ++ "\n" := by
  rw [varsSection, assignments, assigned]
  generalize withLogDir vars = vs
  congr 2
  induction vs with
  | nil => rfl
  | cons v vs ih =>
    obtain ⟨name, value⟩ := v
    rw [List.flatMap_cons, ih]
    change (if isName name then assignment name value else []) ++ _ = _
    rw [List.filter_cons]
    by_cases hname : isName name = true
    · rw [if_pos hname, if_pos hname, List.flatMap_cons]
    · rw [if_neg hname, if_neg hname, List.nil_append]

/-- What follows the name in the assignment of a variable. -/
def assigning (name value : String) : String :=
  ":-\x7d\" ] || " ++ name ++ "=" ++ doubleQuoted value ++ "\n" ++ "export " ++ name

theorem assignments_cons (v : String × String) (vars : List (String × String)) :
    assignments (v :: vars) = "[ -n \"$\x7b" ++ (v.1 ++ (assigning v.1 v.2 ++
      if vars = [] then "" else "\n" ++ assignments vars)) := by
  cases vars with
  | nil =>
    rw [assignments, List.flatMap_cons, List.flatMap_nil, List.append_nil, assignment,
      String.intercalate_cons_of_ne_nil (List.cons_ne_nil _ _), String.intercalate_singleton, if_pos rfl, assigning]
    simp only [String.append_assoc, String.append_empty]
  | cons v' vars =>
    rw [assignments, List.flatMap_cons, assignment, List.cons_append, List.cons_append, List.nil_append,
      String.intercalate_cons_of_ne_nil (List.cons_ne_nil _ _),
      String.intercalate_cons_of_ne_nil (by simp [assignment]), if_neg (List.cons_ne_nil _ _), assigning, assignments]
    simp only [String.append_assoc]

theorem takeWhile_noColon {cs : List Char} (h : ':' ∉ cs) (rest : List Char) :
    (cs ++ ':' :: rest).takeWhile (· ≠ ':') = cs := by
  rw [List.takeWhile_append_of_pos]
  · simp
  · intro c hc
    simpa using fun hcolon : c = ':' => h (hcolon ▸ hc)

theorem name_eq_of_assigning {s s' : String} (hname : isName name = true) (hname' : isName name' = true)
    (h : name ++ (assigning name value ++ s) = name' ++ (assigning name' value' ++ s')) : name = name' := by
  have hcolon : ∀ name value s : String, ∃ rest, (assigning name value ++ s).toList = ':' :: rest := by
    intro name value s
    simp only [assigning, String.toList_append, List.append_assoc]
    exact ⟨_, rfl⟩
  obtain ⟨rest, hrest⟩ := hcolon name value s
  obtain ⟨rest', hrest'⟩ := hcolon name' value' s'
  have hchars := congrArg String.toList h
  rw [String.toList_append, hrest, String.toList_append, hrest'] at hchars
  have hnames := congrArg (List.takeWhile (· ≠ ':')) hchars
  rw [takeWhile_noColon (noColon_of_isName hname), takeWhile_noColon (noColon_of_isName hname')] at hnames
  exact String.toList_inj.1 hnames

theorem assignments_inj (h : vars.Perm vars') (hk : IsKeyed vars) (hnames : ∀ v ∈ vars, isName v.1 = true)
    (heq : assignments vars = assignments vars') : vars = vars' := by
  induction vars generalizing vars' with
  | nil => exact (List.nil_perm.1 h).symm
  | cons v vars ih =>
    cases vars' with
    | nil => exact absurd h.eq_nil (List.cons_ne_nil _ _)
    | cons v' vars' =>
      rw [assignments_cons, assignments_cons, String.append_right_inj] at heq
      obtain ⟨hname, hnames'⟩ := List.forall_mem_cons.1 hnames
      have hkey := name_eq_of_assigning hname (hnames v' (h.mem_iff.2 List.mem_cons_self)) heq
      -- Of one name there is one value.
      obtain rfl : v = v' := by
        have hvalue := lookup_of_mem ((isKeyed_of_perm h).1 hk) (k := v.1) (v := v.2) (h.mem_iff.1 List.mem_cons_self)
        rw [hkey, lookup_of_mem ((isKeyed_of_perm h).1 hk) (k := v'.1) (v := v'.2) List.mem_cons_self] at hvalue
        exact Prod.ext hkey (Option.some.inj hvalue).symm
      rw [String.append_right_inj, String.append_right_inj] at heq
      have hrest := (List.perm_cons v).1 h
      cases vars with
      | nil => rw [List.nil_perm.1 hrest]
      | cons u us =>
        have hne : vars' ≠ [] := fun hnil => List.cons_ne_nil u us (hnil ▸ hrest).eq_nil
        rw [if_neg (List.cons_ne_nil _ _), if_neg hne, String.append_right_inj] at heq
        rw [ih hrest (isKeyed_cons.1 hk).2 hnames' heq]

/-- The names of the variables that are assigned rise. -/
def InNameOrder (vars : List (String × String)) : Prop :=
  (assigned vars).Pairwise fun v v' => v.1 ≤ v'.1

instance (vars : List (String × String)) : Decidable (InNameOrder vars) :=
  inferInstanceAs (Decidable (List.Pairwise _ _))

theorem isKeyed_assigned (hk : IsKeyed vars) : IsKeyed (assigned vars) :=
  hk.sublist ((List.filter_sublist).map _)

theorem assigned_sortByKey_iff (hk : IsKeyed vars) :
    assigned vars = assigned (sortByKey vars) ↔ InNameOrder vars := by
  have hsorted : (assigned (sortByKey vars)).Pairwise fun v v' => v.1 ≤ v'.1 := (pairwise_sortByKey vars).filter _
  constructor
  · intro h
    rw [InNameOrder, h]
    exact hsorted
  · intro h
    exact eq_of_pairwise ((sortByKey_perm vars).symm.filter _) (isKeyed_assigned hk) h hsorted

theorem withLogDir_perm (h : vars.Perm vars') : (withLogDir vars).Perm (withLogDir vars') := by
  rw [withLogDir, withLogDir, h.any_eq]
  split
  · exact h
  · exact h.append_right _

theorem isKeyed_withLogDir (hk : IsKeyed vars) : IsKeyed (withLogDir vars) := by
  rw [withLogDir]
  split
  · exact hk
  · rename_i hnone
    rw [List.any_eq_true, not_exists] at hnone
    refine isKeyed_of_perm (List.perm_append_singleton _ _).symm |>.1 (isKeyed_cons.2 ⟨fun hmem => ?_, hk⟩)
    obtain ⟨v, hv, hname⟩ := List.mem_map.1 hmem
    exact hnone v ⟨hv, beq_iff_eq.2 hname⟩

theorem assigned_withLogDir_iff (h : vars.Perm vars') :
    assigned (withLogDir vars) = assigned (withLogDir vars') ↔ assigned vars = assigned vars' := by
  rw [withLogDir, withLogDir, h.any_eq]
  split
  · rfl
  · rw [assigned, assigned, List.filter_append, List.filter_append, List.append_cancel_right_eq]
    rfl

theorem varsSection_sortByKey_iff (hk : IsKeyed vars) :
    varsSection vars = varsSection (sortByKey vars) ↔ InNameOrder vars := by
  have hperm := (sortByKey_perm vars).symm
  rw [varsSection_eq, varsSection_eq, String.append_left_inj, ← assigned_sortByKey_iff hk,
    ← assigned_withLogDir_iff hperm]
  constructor
  · exact assignments_inj ((withLogDir_perm hperm).filter _) (isKeyed_assigned (isKeyed_withLogDir hk))
      fun v hv => (List.mem_filter.1 hv).2
  · exact congrArg assignments

variable {r : Recipe} {t : Moment}

theorem exists_assemble_eq (r : Recipe) (t : Moment) (fs : List (Step × Fragment)) : ∃ rest, ∀ vars,
    assemble { r with vars } t fs = preamble ++ "\n" ++ (varsSection vars ++ "\n" ++ rest) := by
  refine ⟨"\n".intercalate ([logging, "echo " ++ singleQuoted (bannerText r t) ++ "\n", rootCheck,
    Preflight.block (commands fs), "total=" ++ number r.steps.length ++ "\n"] ++
      stepSections r.steps.length 1 fs ++ [summary]), fun vars => ?_⟩
  rw [assemble]
  simp only [List.cons_append]
  rw [String.intercalate_cons_of_ne_nil (List.cons_ne_nil _ _),
    String.intercalate_cons_of_ne_nil (List.cons_ne_nil _ _)]
  rfl

theorem script_sortByKey_iff (hk : IsKeyed r.vars) {script script' : String} (h : Installer.script r t = .ok script)
    (h' : Installer.script { r with vars := sortByKey r.vars } t = .ok script') :
    script = script' ↔ InNameOrder r.vars := by
  rw [Installer.script] at h h'
  obtain ⟨fs, hfs, rfl⟩ := Except.map_eq_ok.1 h
  obtain ⟨fs', hfs', rfl⟩ := Except.map_eq_ok.1 h'
  obtain rfl : fs = fs' := Except.ok.inj (hfs.symm.trans hfs')
  obtain ⟨rest, hrest⟩ := exists_assemble_eq r t fs
  rw [← varsSection_sortByKey_iff hk, hrest (sortByKey r.vars), show assemble r t fs = _ from hrest r.vars,
    String.append_right_inj, String.append_left_inj, String.append_left_inj]

end Installer

end Provision
