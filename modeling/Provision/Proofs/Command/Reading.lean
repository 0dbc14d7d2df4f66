import Provision.Proofs.Command.Runs
import Provision.Proofs.Disk.Operations
import Provision.Proofs.Workspace

/-!
# Reading the words of a command

To read the words of a command and to check what they say leaves no trace, if it succeeds (`traceless_readLine`): then
nothing has been written, and the workspace is as it was. The options that have been read are among those that the
command takes (`mem_of_read`), and a value that is to be a whole number is one (`readLine_eq_ok`).
-/

namespace Provision.Command

variable {α β ε : Type} {x : RunM α} {f : α → RunM β} {o o' : Output} {w w' w₁ : Workspace} {a : α} {b : β} {n : Name}
  {words rest : List String} {l : Line}

theorem ends_bind_eq_ok : ends (x >>= f) o w = ((.ok b, o'), w') ↔
    ∃ a o₁ w₁, ends x o w = ((.ok a, o₁), w₁) ∧ ends (f a) o₁ w₁ = ((.ok b, o'), w') := by
  constructor
  · intro h
    rcases hx : ends x o w with ⟨⟨e | a, o₁⟩, w₁⟩
    · rw [ends_bind_error hx] at h
      cases h
    · rw [ends_bind_ok hx] at h
      exact ⟨a, o₁, w₁, rfl, h⟩
  · rintro ⟨a, o₁, w₁, hx, h⟩
    rw [ends_bind_ok hx, h]

/-- Where the computation has a result, nothing has been written. -/
def Silent (x : RunM α) : Prop :=
  ∀ o w a o' w', ends x o w = ((.ok a, o'), w') → o' = o

/-- Where the computation has a result, it has left the workspace as it was, and nothing has been written. -/
def Traceless (x : RunM α) : Prop :=
  ∀ o w a o' w', ends x o w = ((.ok a, o'), w') → o' = o ∧ w' = w

theorem Silent.bind (hx : Silent x) (hf : ∀ a, Silent (f a)) : Silent (x >>= f) := by
  intro o w b o' w' h
  obtain ⟨a, o₁, w₁, h₁, h₂⟩ := ends_bind_eq_ok.1 h
  rw [hf a _ _ _ _ _ h₂, hx _ _ _ _ _ h₁]

theorem Traceless.bind (hx : Traceless x) (hf : ∀ a, Traceless (f a)) : Traceless (x >>= f) := by
  intro o w b o' w' h
  obtain ⟨a, o₁, w₁, h₁, h₂⟩ := ends_bind_eq_ok.1 h
  obtain ⟨rfl, rfl⟩ := hx _ _ _ _ _ h₁
  exact hf a _ _ _ _ _ h₂

theorem Traceless.pure (a : α) : Traceless (pure a : RunM α) := by
  intro o w b o' w' h
  cases h
  exact ⟨rfl, rfl⟩

theorem Traceless.throw (e : Stop) : Traceless (throw e : RunM α) := by
  intro o w b o' w' h
  cases h

/-- The computation has no result. -/
def Stops (x : RunM α) : Prop :=
  ∀ o w, ∃ e, (ends x o w).1.1 = .error e

theorem Stops.bind (hf : ∀ a, Stops (f a)) : Stops (x >>= f) := by
  intro o w
  rcases hx : ends x o w with ⟨⟨e | a, o₁⟩, w₁⟩
  · exact ⟨e, by rw [ends_bind_error hx]⟩
  · rw [ends_bind_ok hx]
    exact hf a o₁ w₁

theorem Stops.throw (e : Stop) : Stops (throw e : RunM α) :=
  fun _ _ => ⟨e, rfl⟩

theorem Stops.traceless (h : Stops x) : Traceless x := by
  intro o w a o' w' hx
  obtain ⟨e, he⟩ := h o w
  rw [hx] at he
  cases he

theorem stops_abort (message : String) : Stops (abort message : RunM α) :=
  .bind fun _ => .throw _

theorem work_eq_ok {y : WorkM ε α} {handle : ε → RunM α} (h : ∀ e, Stops (handle e))
    (hx : ends (work y handle) o w = ((.ok a, o'), w')) : o' = o ∧ y.run w = (.ok a, w') := by
  rw [ends_work] at hx
  rcases hy : y.run w with ⟨e | b, w₁⟩
  · rw [hy] at hx
    obtain ⟨e', he⟩ := h e o w₁
    dsimp only at hx
    rw [hx] at he
    cases he
  · rw [hy] at hx
    cases hx
    exact ⟨rfl, rfl⟩

theorem silent_onDisk (y : DiskM α) : Silent (onDisk y) :=
  fun _ _ _ _ _ hx => (work_eq_ok (fun _ => .throw _) hx).1

theorem traceless_onDisk {y : DiskM α} (h : ReadOnly y) : Traceless (onDisk y) := by
  intro o w a o' w' hx
  obtain ⟨rfl, hy⟩ := work_eq_ok (fun _ => .throw _) hx
  exact ⟨rfl, ((WorkM.readOnly_onDisk h).run_eq hy).symm⟩

theorem readOnly_isPlainFile (written : String) : ReadOnly (isPlainFile written) := by
  rw [isPlainFile]
  split
  · exact .pure _
  split
  · exact .pure _
  · exact Preserves.tryCatch (fun h h' => h'.trans h) (Disk.readOnly_isFile _) fun _ => ReadOnly.pure _

theorem traceless_checkPath (written : String) : Traceless (checkPath written) := by
  rw [checkPath]
  split
  · exact .throw _
  · exact .pure _

theorem traceless_checkValue (n : Name) (hint value : String) (kind : ValueKind) :
    Traceless (checkValue n hint value kind) := by
  cases kind with
  | text => exact .pure _
  | integer =>
    rw [checkValue]
    split
    · exact .pure _
    · exact .throw _
  | oneOf choices =>
    rw [checkValue]
    split
    · exact .pure _
    · exact .throw _
  | path => exact traceless_checkPath value
  | directory =>
    refine .bind (traceless_checkPath value) fun _ => .bind (traceless_onDisk (readOnly_isPlainFile value)) fun b => ?_
    cases b with
    | false => exact .pure _
    | true => exact .throw _

theorem traceless_checkOptions (n : Name) (l : Line) (os : List Opt) : Traceless (checkOptions n l os) := by
  induction os with
  | nil => exact .pure _
  | cons x os ih =>
    rw [checkOptions]
    split
    · exact .bind (traceless_checkValue n _ _ _) fun _ => ih
    · exact ih

theorem traceless_checkArguments (n : Name) (xs : List Argument) (ws : List String) :
    Traceless (checkArguments n xs ws) := by
  induction xs generalizing ws with
  | nil =>
    cases ws with
    | nil => exact .pure _
    | cons word ws => exact .throw _
  | cons x xs ih =>
    cases ws with
    | nil => exact .throw _
    | cons word ws => exact .bind (traceless_checkValue n _ _ _) fun _ => ih ws

theorem traceless_runEager (n : Name) (os : List Opt) : Traceless (runEager n os) := by
  induction os with
  | nil => exact .pure _
  | cons x os ih =>
    rw [runEager]
    split
    · exact Stops.traceless (.bind fun _ => .throw _)
    split
    · exact Stops.traceless (.bind fun _ => .throw _)
    · exact ih

theorem traceless_readLine (n : Name) (words : List String) : Traceless (readLine n words) := by
  rw [readLine]
  split
  · exact .throw _
  · refine .bind (traceless_runEager n _) fun _ => .bind (traceless_checkOptions n _ _) fun _ => ?_
    dsimp only
    split
    · exact .bind (traceless_checkArguments n _ _) fun _ => .pure _
    · exact .pure _

theorem traceless_needsWords (n : Name) (words : List String) : Traceless (needsWords n words) := by
  rw [needsWords]
  split
  · exact Stops.traceless (.bind fun _ => .throw _)
  · exact .pure _

theorem traceless_resolve (n : Name) (words : List String) : Traceless (resolve n words) := by
  rw [resolve.eq_def]
  split
  · exact .throw _
  · dsimp only
    split
    · exact .pure _
    split
    · exact .bind (traceless_readLine n _) fun _ => .throw _
    · exact .throw _

/-! ### Options -/

theorem mem_of_find {os : List Opt} {name : String} {x : Opt} (h : find? os name = some x) : x ∈ os :=
  List.mem_of_find?_eq_some h

/-- The options that a word says, or waits with, are among those that are given. -/
def Reading.IsOf (r : Reading) (os : List Opt) : Prop :=
  (∀ g ∈ r.given, g.option ∈ os) ∧ ∀ x ∈ r.waiting, x.1 ∈ os

theorem isOf_readShort {os : List Opt} {cs : List Char} {r : Reading} (h : readShort os cs = .ok r) : r.IsOf os := by
  induction cs generalizing r with
  | nil =>
    cases h
    exact ⟨fun g hg => (nomatch hg), fun x hx => (nomatch hx)⟩
  | cons c cs ih =>
    rw [readShort] at h
    split at h
    · cases h
    rename_i x hx
    have hmem := mem_of_find hx
    split at h
    · split at h
      · cases h
        refine ⟨fun g hg => (nomatch hg), fun y hy => ?_⟩
        cases hy
        exact hmem
      · cases h
        refine ⟨fun g hg => ?_, fun y hy => (nomatch hy)⟩
        obtain rfl := List.mem_singleton.1 hg
        exact hmem
    · obtain ⟨r', hr', rfl⟩ := Except.map_eq_ok.1 h
      obtain ⟨hgiven, hwaiting⟩ := ih hr'
      exact ⟨List.forall_mem_cons.2 ⟨hmem, hgiven⟩, hwaiting⟩

theorem isOf_readWord {os : List Opt} {word : String} {r : Reading} (h : readWord os word = .ok r) : r.IsOf os := by
  rw [readWord] at h
  dsimp only at h
  split at h
  · rename_i x hx
    have hmem : x ∈ os := by
      rw [findLong?] at hx
      split at hx
      · cases hx
      · exact mem_of_find hx
    have hone : ∀ v : Option String, Reading.IsOf ⟨[⟨x, v⟩], none⟩ os := fun v =>
      ⟨fun g hg => by obtain rfl := List.mem_singleton.1 hg; exact hmem, fun y hy => (nomatch hy)⟩
    split at h <;> cases h
    · exact hone _
    · refine ⟨fun g hg => (nomatch hg), fun y hy => ?_⟩
      cases hy
      exact hmem
    · exact hone _
  · split at h
    · cases h
    · exact isOf_readShort h

theorem mem_of_read {s : Signature} (h : Line.read s words = .ok l) : ∀ g ∈ l.given, g.option ∈ s.options := by
  fun_induction Line.read s words generalizing l with
  | case1 =>
    cases h
    exact fun g hg => (nomatch hg)
  | case2 =>
    cases h
    exact fun g hg => (nomatch hg)
  | case3 word rest hdash hoption ih ihvalue =>
    obtain ⟨r, hr, h⟩ := Except.bind_eq_ok.1 h
    obtain ⟨hgiven, hwaiting⟩ := isOf_readWord hr
    cases hw : r.waiting with
    | none =>
      rw [hw] at h
      obtain ⟨l', hl', h⟩ := Except.bind_eq_ok.1 h
      cases h
      exact fun g hg => (List.mem_append.1 hg).elim (hgiven g) (ih hl' g)
    | some x =>
      rw [hw] at h
      cases rest with
      | nil => cases h
      | cons value rest =>
        obtain ⟨l', hl', h⟩ := Except.bind_eq_ok.1 h
        cases h
        intro g hg
        rcases List.mem_append.1 hg with hg | hg
        · exact hgiven g hg
        rcases List.mem_cons.1 hg with rfl | hg
        · exact hwaiting x hw
        · exact ihvalue hl' g hg
  | case4 =>
    cases h
    exact fun g hg => (nomatch hg)
  | case5 word rest hdash hoption hgroup ih =>
    obtain ⟨l', hl', rfl⟩ := Except.map_eq_ok.1 h
    have hgiven := ih hl'
    exact hgiven

theorem integer_of_checkOptions {os : List Opt} {u : Unit} (h : ends (checkOptions n l os) o w = ((.ok u, o'), w'))
    {y : Opt} (hy : y ∈ os) (hkind : y.value = some .integer) {v : String} (hv : l.value? y.key = some v) :
    (Decimal.integer? v).isSome = true := by
  induction os generalizing o w with
  | nil => cases hy
  | cons x os ih =>
    rw [checkOptions] at h
    rcases List.mem_cons.1 hy with rfl | hy
    · rw [hkind, hv] at h
      obtain ⟨u', o₁, w₁, hcheck, -⟩ := ends_bind_eq_ok.1 h
      rw [checkValue] at hcheck
      split at hcheck
      · assumption
      · cases hcheck
    · split at h
      · obtain ⟨u', o₁, w₁, -, hrest⟩ := ends_bind_eq_ok.1 h
        exact ih hrest hy
      · exact ih h hy

theorem readLine_eq_ok (h : ends (readLine n words) o w = ((.ok l, o'), w')) : Line.read n.signature words = .ok l ∧
    ∀ x ∈ l.options, x.value = some .integer → ∀ v, l.value? x.key = some v → (Decimal.integer? v).isSome = true := by
  rw [readLine] at h
  cases hl : Line.read n.signature words with
  | error f =>
    rw [hl] at h
    cases h
  | ok l' =>
    rw [hl] at h
    obtain ⟨_, o₁, w₁, -, h⟩ := ends_bind_eq_ok.1 h
    obtain ⟨_, o₂, w₂, hoptions, h⟩ := ends_bind_eq_ok.1 h
    have hsame : l' = l := by
      dsimp only at h
      split at h
      · obtain ⟨-, o₃, w₃, -, h⟩ := ends_bind_eq_ok.1 h
        cases h
        rfl
      · cases h
        rfl
    subst hsame
    exact ⟨rfl, fun x hx hkind v hv => integer_of_checkOptions hoptions hx hkind hv⟩

theorem resolve_eq_ok {m : Name} (h : ends (resolve n words) o w = ((.ok (m, rest), o'), w')) :
    ∃ word, words = word :: rest ∧ n.members.lookup word = some m := by
  rw [resolve.eq_def] at h
  split at h
  · cases h
  rename_i word rest'
  dsimp only at h
  split at h
  · rename_i m' hm
    cases h
    exact ⟨word, rfl, hm⟩
  split at h
  · obtain ⟨l, o₁, w₁, -, h⟩ := ends_bind_eq_ok.1 h
    cases h
  · cases h

end Provision.Command
