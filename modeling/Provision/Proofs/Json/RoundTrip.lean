import Provision.Proofs.Json.Reread

/-!
# Printed values read back

`read_toPretty`: reading the printed text of a value gives the value, where it holds no floating-point
number, no key twice, no integer of too many digits and no more containers inside each other than are
read. With floating-point numbers it gives the value with these read again (`read_toPretty_reread`). The
proof follows the printer: in a state that waits for a value (`Awaits`), the machine takes the text of a
value and goes on as if the value had been complete from the start.
-/

namespace Provision.Json

variable {limits : Limits} {s : State} {stack : List Frame} {text rest : List Char} {t : Token}

theorem run_congr {text' : List Char} (h : text.dropWhile isSpace = text'.dropWhile isSpace)
    (s : State) : run limits s text = run limits s text' := by
  rw [run.eq_def, run.eq_def limits s text', h]

theorem run_newline (level : Nat) (s : State) (text : List Char) :
    run limits s (newline level ++ text) = run limits s text := by
  refine run_congr ?_ s
  rw [newline, List.cons_append, List.dropWhile_cons_of_pos (by decide)]
  exact List.dropWhile_append_of_pos fun c hc => by rw [List.eq_of_mem_replicate hc]; decide

theorem run_of_begins (h : Begins text t rest) (s : State) :
    run limits s text = (step limits s t).bind fun next => run limits next rest := by
  obtain ⟨c, cs, hd, ht⟩ := h
  rw [run.eq_def]
  split
  · rename_i h; rw [hd] at h; cases h
  · rename_i h
    rw [hd] at h
    cases h
    split
    · rename_i h; rw [ht] at h; cases h
    · rename_i h
      rw [ht] at h
      cases h
      split <;> (rename_i h; rw [h]; rfl)

theorem run_step {next : State} (h : Begins text t rest) (hs : step limits s t = .ok next) :
    run limits s text = run limits next rest := by
  rw [run_of_begins h, hs]; rfl

/-- What a value must be for its text to be read at all. -/
structure IsText (v : Json) : Prop where
  keyed : v.WellKeyed
  writable : v.writable = true

theorem IsText.item {items : List Json} (h : IsText (.arr items)) {v : Json} (hv : v ∈ items) : IsText v :=
  ⟨wellKeyed_arr.1 h.keyed v hv, writable_arr.1 h.writable v hv⟩

theorem IsText.member {members : Members} (h : IsText (.obj members)) {m : String × Json} (hm : m ∈ members) :
    IsText m.2 :=
  ⟨(wellKeyed_obj.1 h.keyed).2 m hm, writable_obj.1 h.writable m hm⟩

/-- What a value must be for its text to be read back. -/
structure IsPlain (v : Json) : Prop where
  exact : v.isExact = true
  keyed : v.WellKeyed
  writable : v.writable = true

theorem IsPlain.isText {v : Json} (h : IsPlain v) : IsText v := ⟨h.keyed, h.writable⟩

/-- A plain value with at most so many containers inside each other. -/
def PlainWithin (n : Nat) (v : Json) : Prop :=
  IsPlain v ∧ v.depth ≤ n

theorem PlainWithin.str {n : Nat} (x : String) : PlainWithin n (.str x) :=
  ⟨⟨rfl, trivial, rfl⟩, Nat.zero_le n⟩

theorem PlainWithin.arr {n : Nat} {items : List Json} (h : ∀ v ∈ items, PlainWithin n v) :
    PlainWithin (n + 1) (.arr items) :=
  ⟨⟨isExact_arr.2 fun v hv => (h v hv).1.exact, wellKeyed_arr.2 fun v hv => (h v hv).1.keyed,
    writable_arr.2 fun v hv => (h v hv).1.writable⟩, levels_arr_le.2 fun v hv => (h v hv).2⟩

theorem PlainWithin.obj {n : Nat} {members : Members} (hk : IsKeyed members)
    (h : ∀ m ∈ members, PlainWithin n m.2) : PlainWithin (n + 1) (.obj members) :=
  ⟨⟨isExact_obj.2 fun m hm => (h m hm).1.exact,
    wellKeyed_obj.2 ⟨hk, fun m hm => (h m hm).1.keyed⟩,
    writable_obj.2 fun m hm => (h m hm).1.writable⟩, levels_obj_le.2 fun m hm => (h m hm).2⟩

/-- A value without doubled keys, with at most so many containers inside each other. -/
structure KeyedWithin (n : Nat) (v : Json) : Prop where
  keyed : v.WellKeyed
  depth : v.depth ≤ n

theorem KeyedWithin.str {n : Nat} (x : String) : KeyedWithin n (.str x) :=
  ⟨trivial, Nat.zero_le n⟩

theorem KeyedWithin.arr {n : Nat} {items : List Json} (h : ∀ v ∈ items, KeyedWithin n v) :
    KeyedWithin (n + 1) (.arr items) :=
  ⟨wellKeyed_arr.2 fun v hv => (h v hv).keyed, levels_arr_le.2 fun v hv => (h v hv).depth⟩

theorem KeyedWithin.obj {n : Nat} {members : Members} (hk : IsKeyed members)
    (h : ∀ m ∈ members, KeyedWithin n m.2) : KeyedWithin (n + 1) (.obj members) :=
  ⟨wellKeyed_obj.2 ⟨hk, fun m hm => (h m hm).keyed⟩, levels_obj_le.2 fun m hm => (h m hm).depth⟩

/-- The machine waits for a value, to be put on top of a stack. -/
def Awaits (limits : Limits) (s : State) (stack : List Frame) : Prop :=
  ∀ t, t ≠ .closeArray → step limits s t = startValue limits stack t

theorem awaits_value : Awaits limits (.value stack) stack := fun _ _ => rfl

theorem awaits_firstItem : Awaits limits (.firstItem stack) (.items [] :: stack) := by
  intro t ht
  cases t <;> first | rfl | exact absurd rfl ht

theorem run_token {v : Json} (hs : Awaits limits s stack) (h : Begins text t rest)
    (hv : startValue limits stack t = .ok (complete v stack)) :
    run limits s text = run limits (complete v stack) rest := by
  refine run_step h ?_
  rw [hs t ?_, hv]
  rintro rfl
  cases hv

theorem begins_rereadFloat (x : Float) (rest : List Char) (hrest : EndsNumber rest) :
    Begins ((Decimal.floatText numberWords x).toList ++ rest) (.scalar (.float (rereadFloat x))) rest := by
  obtain ⟨y, hy⟩ := begins_float x
  have hread : read .standard (Decimal.floatText numberWords x) = .ok (.float y) := by
    have hrun : run .standard (.value []) (_ ++ []) = run .standard (complete (.float y) []) [] :=
      run_token awaits_value (hy [] trivial) rfl
    rw [List.append_nil] at hrun
    rw [read, hrun, run.eq_def]
    rfl
  rw [rereadFloat, hread]
  exact hy rest hrest

theorem run_integer {n : Int} (hl : limits.digits = some digitLimit) (hn : fitsDigitLimit n = true)
    (hs : Awaits limits s stack) (hrest : EndsNumber rest) :
    run limits s ((Decimal.intText n).toList ++ rest) = run limits (complete (.int n) stack) rest := by
  have hfit : limits.digits.any (· < (Nat.toDigits 10 n.natAbs).length) = false := by
    simpa [hl, fitsDigitLimit] using hn
  rw [Decimal.intText, String.toList_ofList]
  by_cases h : n < 0
  · rw [if_pos h]
    refine run_token hs (Begins.toDigits n.natAbs true hrest) ?_
    rw [startValue, hfit, Decimal.digitsValue_toDigits]
    have hn : -(n.natAbs : Int) = n := by omega
    simp only [hn, Bool.false_eq_true, if_false, if_true]
  · rw [if_neg h]
    refine run_token hs (Begins.toDigits n.natAbs false hrest) ?_
    rw [startValue, hfit, Decimal.digitsValue_toDigits]
    have hn : (n.natAbs : Int) = n := by omega
    simp only [hn, Bool.false_eq_true, if_false]

theorem endsNumber_prettyItems (level : Nat) (vs : List Json) (rest : List Char) :
    EndsNumber (prettyItems .unicode level vs ++ rest) := by
  cases vs with
  | nil => exact ⟨by decide, by decide, by decide, by decide⟩
  | cons v vs => exact ⟨by decide, by decide, by decide, by decide⟩

theorem endsNumber_prettyMembers (level : Nat) (ms : Members) (rest : List Char) :
    EndsNumber (prettyMembers .unicode level ms ++ rest) := by
  cases ms with
  | nil => exact ⟨by decide, by decide, by decide, by decide⟩
  | cons m ms => exact ⟨by decide, by decide, by decide, by decide⟩

theorem step_openArray (hs : Awaits limits s stack) (hd : stack.length < limits.depth) :
    step limits s .openArray = .ok (.firstItem stack) := by
  rw [hs .openArray nofun, startValue, if_pos hd]

theorem step_openObject (hs : Awaits limits s stack) (hd : stack.length < limits.depth) :
    step limits s .openObject = .ok (.firstKey stack) := by
  rw [hs .openObject nofun, startValue, if_pos hd]

theorem run_key (k : String) (done : Members) (text : List Char)
    (hs : step limits s (.str k) = .ok (.colon done k stack)) :
    run limits s (string .unicode k ++ (':' :: ' ' :: text)) =
      run limits (.value (.members done k :: stack)) text := by
  rw [run_step (Begins.string k _) hs]
  rw [run_step (.punctuation (by decide) rfl) (by rfl : step limits (.colon done k stack) .colon = _)]
  exact run_congr (List.dropWhile_cons_of_pos (by decide)) _

/-! ### Items and members of a printed value -/

theorem prettyAt_items (level : Nat) (v : Json) (vs : List Json) (rest : List Char) :
    prettyAt .unicode level (.arr (v :: vs)) ++ rest =
      '[' :: (newline (level + 1) ++ (prettyAt .unicode (level + 1) v ++
        (prettyItems .unicode level vs ++ rest))) := by
  simp only [prettyAt, List.cons_append, List.append_assoc]

theorem prettyAt_members (level : Nat) (k : String) (v : Json) (ms : Members) (rest : List Char) :
    prettyAt .unicode level (.obj ((k, v) :: ms)) ++ rest =
      '\x7b' :: (newline (level + 1) ++ (string .unicode k ++ (':' :: ' ' ::
        (prettyAt .unicode (level + 1) v ++ (prettyMembers .unicode level ms ++ rest))))) := by
  simp only [prettyAt, List.cons_append, List.append_assoc]

theorem run_nextItem (level : Nat) (done : List Json) (v : Json) (vs : List Json) (rest : List Char) :
    run limits (.afterItem done stack) (prettyItems .unicode level (v :: vs) ++ rest) =
      run limits (.value (.items done :: stack))
        (prettyAt .unicode (level + 1) v ++ (prettyItems .unicode level vs ++ rest)) := by
  have htext : prettyItems .unicode level (v :: vs) ++ rest =
      ',' :: (newline (level + 1) ++ (prettyAt .unicode (level + 1) v ++
        (prettyItems .unicode level vs ++ rest))) := by
    simp only [prettyItems, List.cons_append, List.append_assoc]
  rw [htext, run_step (.punctuation (by decide) rfl) rfl, run_newline]

theorem run_lastItem (level : Nat) (done : List Json) (rest : List Char) :
    run limits (.afterItem done stack) (prettyItems .unicode level [] ++ rest) =
      run limits (complete (.arr done.reverse) stack) rest := by
  rw [prettyItems, List.append_assoc, run_newline]
  exact run_step (.punctuation (by decide) rfl) rfl

theorem run_nextMember (level : Nat) (done : Members) (k : String) (v : Json) (ms : Members) (rest : List Char) :
    run limits (.afterMember done stack) (prettyMembers .unicode level ((k, v) :: ms) ++ rest) =
      run limits (.value (.members done k :: stack))
        (prettyAt .unicode (level + 1) v ++ (prettyMembers .unicode level ms ++ rest)) := by
  have htext : prettyMembers .unicode level ((k, v) :: ms) ++ rest =
      ',' :: (newline (level + 1) ++ (string .unicode k ++ (':' :: ' ' ::
        (prettyAt .unicode (level + 1) v ++ (prettyMembers .unicode level ms ++ rest))))) := by
    simp only [prettyMembers, List.cons_append, List.append_assoc]
  rw [htext, run_step (.punctuation (by decide) rfl) rfl, run_newline, run_key k done _ rfl]

theorem run_lastMember (level : Nat) (done : Members) (rest : List Char) :
    run limits (.afterMember done stack) (prettyMembers .unicode level [] ++ rest) =
      run limits (complete (.obj done) stack) rest := by
  rw [prettyMembers, List.append_assoc, run_newline]
  exact run_step (.punctuation (by decide) rfl) rfl

mutual

theorem run_prettyAt_reread (hl : limits.digits = some digitLimit) :
    ∀ (v : Json) (level : Nat) (s : State) (stack : List Frame) (rest : List Char), IsText v →
      stack.length + v.depth ≤ limits.depth → Awaits limits s stack → EndsNumber rest →
      run limits s (prettyAt .unicode level v ++ rest) = run limits (complete v.reread stack) rest
  | .null, _, _, _, rest, _, _, hs, _ => run_token hs (Begins.null rest) rfl
  | .bool b, _, _, _, rest, _, _, hs, _ => run_token hs (Begins.bool b rest) rfl
  | .str x, _, _, _, rest, _, _, hs, _ => run_token hs (Begins.string x rest) rfl
  | .int n, _, _, _, _, hv, _, hs, hrest => run_integer hl hv.writable hs hrest
  | .float x, _, _, _, rest, _, _, hs, hrest => run_token hs (begins_rereadFloat x rest hrest) rfl
  | .arr [], _, s, stack, rest, _, hd, hs, _ => by
    change run limits s ('[' :: ']' :: rest) = _
    rw [run_step (.punctuation (by decide) rfl) (step_openArray hs hd)]
    exact run_step (.punctuation (by decide) rfl) rfl
  | .arr (v :: vs), level, s, stack, rest, hv, hd, hs, _ => by
    simp only [depth, levels, levelsOfItems] at hd
    rw [prettyAt_items, run_step (.punctuation (by decide) rfl) (step_openArray hs (by omega)), run_newline,
      run_prettyAt_reread hl v (level + 1) _ (.items [] :: stack) _ (hv.item (by simp))
        (by simp only [List.length_cons, depth]; omega) awaits_firstItem
        (endsNumber_prettyItems level vs rest)]
    exact run_prettyItems_reread hl vs level [v.reread] stack rest (fun w hw => hv.item (by simp [hw])) (by omega)
  | .obj [], _, s, stack, rest, _, hd, hs, _ => by
    change run limits s ('\x7b' :: '\x7d' :: rest) = _
    rw [run_step (.punctuation (by decide) rfl) (step_openObject hs hd)]
    exact run_step (.punctuation (by decide) rfl) rfl
  | .obj ((k, v) :: ms), level, s, stack, rest, hv, hd, hs, _ => by
    simp only [depth, levels, levelsOfMembers] at hd
    rw [prettyAt_members, run_step (.punctuation (by decide) rfl) (step_openObject hs (by omega)), run_newline,
      run_key k [] _ rfl,
      run_prettyAt_reread hl v (level + 1) _ (.members [] k :: stack) _ (hv.member List.mem_cons_self)
        (by simp only [List.length_cons, depth]; omega) awaits_value
        (endsNumber_prettyMembers level ms rest)]
    exact run_prettyMembers_reread hl ms level [(k, v.reread)] stack rest
      (fun m hm => hv.member (List.mem_cons_of_mem _ hm)) (wellKeyed_obj.1 hv.keyed).1 (by omega)

theorem run_prettyItems_reread (hl : limits.digits = some digitLimit) :
    ∀ (vs : List Json) (level : Nat) (done : List Json) (stack : List Frame) (rest : List Char),
      (∀ v ∈ vs, IsText v) → stack.length + 1 + levelsOfItems 0 vs ≤ limits.depth →
      run limits (.afterItem done stack) (prettyItems .unicode level vs ++ rest) =
        run limits (complete (.arr (done.reverse ++ rereadItems vs)) stack) rest
  | [], level, done, stack, rest, _, _ => by
    rw [rereadItems, mapFloatsItems, List.append_nil]
    exact run_lastItem level done rest
  | v :: vs, level, done, stack, rest, hv, hd => by
    simp only [levelsOfItems] at hd
    have hnext : done.reverse ++ rereadItems (v :: vs) = (v.reread :: done).reverse ++ rereadItems vs := by
      simp [rereadItems, mapFloatsItems, reread]
    rw [run_nextItem,
      run_prettyAt_reread hl v (level + 1) _ (.items done :: stack) _ (hv v List.mem_cons_self)
        (by simp only [List.length_cons, depth]; omega) awaits_value
        (endsNumber_prettyItems level vs rest), hnext]
    exact run_prettyItems_reread hl vs level (v.reread :: done) stack rest
      (fun w hw => hv w (List.mem_cons_of_mem _ hw)) (by omega)

theorem run_prettyMembers_reread (hl : limits.digits = some digitLimit) :
    ∀ (ms : Members) (level : Nat) (done : Members) (stack : List Frame) (rest : List Char),
      (∀ m ∈ ms, IsText m.2) → IsKeyed (done ++ ms) →
      stack.length + 1 + levelsOfMembers 0 ms ≤ limits.depth →
      run limits (.afterMember done stack) (prettyMembers .unicode level ms ++ rest) =
        run limits (complete (.obj (done ++ rereadMembers ms)) stack) rest
  | [], level, done, stack, rest, _, _, _ => by
    rw [rereadMembers, mapFloatsMembers, List.append_nil]
    exact run_lastMember level done rest
  | (k, v) :: ms, level, done, stack, rest, hv, hk, hd => by
    simp only [levelsOfMembers] at hd
    have hnext : done ++ rereadMembers ((k, v) :: ms) = (done ++ [(k, v.reread)]) ++ rereadMembers ms := by
      simp [rereadMembers, mapFloatsMembers, reread]
    have hput : put k v.reread done = done ++ [(k, v.reread)] :=
      put_of_not_mem v.reread (not_mem_of_isKeyed_append hk)
    have hkeyed : IsKeyed (done ++ [(k, v.reread)] ++ ms) := by simpa [IsKeyed] using hk
    rw [run_nextMember,
      run_prettyAt_reread hl v (level + 1) _ (.members done k :: stack) _ (hv _ List.mem_cons_self)
        (by simp only [List.length_cons, depth]; omega) awaits_value
        (endsNumber_prettyMembers level ms rest), complete, hput, hnext]
    exact run_prettyMembers_reread hl ms level (done ++ [(k, v.reread)]) stack rest
      (fun m hm => hv m (List.mem_cons_of_mem _ hm)) hkeyed (by omega)

end

theorem run_prettyAt (hl : limits.digits = some digitLimit) (v : Json) (level : Nat) (s : State)
    (stack : List Frame) (rest : List Char) (hv : IsPlain v) (hd : stack.length + v.depth ≤ limits.depth)
    (hs : Awaits limits s stack) (hrest : EndsNumber rest) :
    run limits s (prettyAt .unicode level v ++ rest) = run limits (complete v stack) rest := by
  rw [run_prettyAt_reread hl v level s stack rest hv.isText hd hs hrest, reread_of_isExact hv.exact]

theorem run_finished (v : Json) {text : List Char} (h : ∀ c ∈ text, isSpace c = true) :
    run limits (.finished v) text = .ok v := by
  have hd : text.dropWhile isSpace = [] := List.dropWhile_eq_nil_iff.2 h
  rw [run.eq_def]
  split
  · rfl
  · rename_i heq; rw [hd] at heq; cases heq

theorem read_toPretty_reread (hl : limits.digits = some digitLimit) {v : Json} (hv : IsText v)
    (hd : v.depth ≤ limits.depth) {blanks : String} (hb : ∀ c ∈ blanks.toList, isSpace c = true) :
    read limits (v.toPretty .unicode ++ blanks) = .ok v.reread := by
  have hends : EndsNumber blanks.toList := by
    cases h : blanks.toList with
    | nil => trivial
    | cons c cs =>
      have hc := hb c (by rw [h]; exact List.mem_cons_self)
      simp only [isSpace, Bool.or_eq_true, beq_iff_eq] at hc
      rcases hc with ((rfl | rfl) | rfl) | rfl <;> exact ⟨by decide, by decide, by decide, by decide⟩
  rw [read, toPretty, String.toList_append, String.toList_ofList,
    run_prettyAt_reread hl v 0 _ [] _ hv (by simpa using hd) awaits_value hends]
  exact run_finished v.reread hb

theorem read_toPretty (hl : limits.digits = some digitLimit) {v : Json} (hv : IsPlain v)
    (hd : v.depth ≤ limits.depth) {blanks : String} (hb : ∀ c ∈ blanks.toList, isSpace c = true) :
    read limits (v.toPretty .unicode ++ blanks) = .ok v := by
  rw [read_toPretty_reread hl hv.isText hd hb, reread_of_isExact hv.exact]

end Provision.Json
