import Provision.Proofs.Json.RoundTrip

/-!
# Printed values are read as values

`continues_prettyAt`: whatever value is printed, the machine that reads its text fails or comes to the end of it
with some value complete. Which value it is depends on floating-point numbers and on limits, and is left open here.
It is enough to know that a text is not taken for more or for less than one value: what stands around it is read as
if it were not there.
-/

namespace Provision

/-- The characters that numbers are written with. -/
def Json.isNumeric (c : Char) : Bool :=
  c.isDigit || c ∈ ['.', 'e', 'E', '+', '-']

namespace Decimal

open Json (isNumeric)

theorem isNumeric_of_isDigit {c : Char} (h : c.isDigit = true) : isNumeric c = true := by
  rw [isNumeric, h, Bool.true_or]

theorem isNumeric_zeros {n : Nat} {c : Char} (h : c ∈ zeros n) : isNumeric c = true := by
  rw [List.eq_of_mem_replicate h]
  decide

theorem isNumeric_toDigits {n : Nat} {c : Char} (h : c ∈ Nat.toDigits 10 n) : isNumeric c = true :=
  isNumeric_of_isDigit (List.all_eq_true.1 (all_isDigit_toDigits n) c h)

theorem isNumeric_fraction {ds : List Char} (hds : ∀ c ∈ ds, isNumeric c = true) :
    ∀ c ∈ fraction ds, isNumeric c = true := by
  rw [fraction, List.forall_mem_cons]
  refine ⟨by decide, ?_⟩
  split
  · simp [isNumeric]
  · exact hds

theorem isNumeric_positional {ds : List Char} (hds : ∀ c ∈ ds, isNumeric c = true) (lead : Int) :
    ∀ c ∈ positional ds lead, isNumeric c = true := by
  rw [positional]
  split
  · refine List.forall_mem_cons.2 ⟨by decide, isNumeric_fraction fun c hc => ?_⟩
    rcases List.mem_append.1 hc with hc | hc
    · exact isNumeric_zeros hc
    · exact hds c hc
  · intro c hc
    rcases List.mem_append.1 hc with hc | hc
    · rcases List.mem_append.1 hc with hc | hc
      · exact hds c (List.mem_of_mem_take hc)
      · exact isNumeric_zeros hc
    · exact isNumeric_fraction (fun c hc => hds c (List.mem_of_mem_drop hc)) c hc

theorem isNumeric_exponential {ds : List Char} (hds : ∀ c ∈ ds, isNumeric c = true) (lead : Int) :
    ∀ c ∈ exponential ds lead, isNumeric c = true := by
  intro c hc
  rw [exponential] at hc
  simp only [List.mem_append, or_assoc] at hc
  rcases hc with hc | hc | hc | hc | hc
  · exact hds c (List.mem_of_mem_take hc)
  · split at hc
    · cases hc
    · rcases List.mem_cons.1 hc with rfl | hc
      · decide
      · exact hds c (List.mem_of_mem_drop hc)
  · simp only [List.mem_cons, List.not_mem_nil, or_false] at hc
    rcases hc with rfl | rfl
    · decide
    · split <;> decide
  · exact isNumeric_zeros hc
  · exact isNumeric_toDigits hc

theorem isNumeric_unsigned (b : Binary) : ∀ c ∈ unsigned b, isNumeric c = true := by
  have hds : ∀ ds : List Char, (∀ c ∈ ds, isNumeric c = true) → ∀ c ∈ significant ds, isNumeric c = true := by
    intro ds h c hc
    exact h c (List.mem_reverse.1 ((List.dropWhile_sublist _).subset (List.mem_reverse.1 hc)))
  rw [unsigned]
  split
  · simp [isNumeric]
  · dsimp only
    split
    · exact isNumeric_positional (hds _ fun _ => isNumeric_toDigits) _
    · exact isNumeric_exponential (hds _ fun _ => isNumeric_toDigits) _

theorem unsigned_ne_nil (b : Binary) : unsigned b ≠ [] := by
  rw [unsigned]
  split
  · exact List.cons_ne_nil _ _
  · dsimp only
    split
    · rw [positional]
      split <;> simp [fraction]
    · simp [exponential]

end Decimal

namespace Json

variable {limits : Limits} {s : State} {stack : List Frame} {text rest cs : List Char} {t : Token} {v : Json}

/-- What may stand behind a value: nothing, a comma or a blank. -/
def EndsValue : List Char → Prop
  | [] => True
  | c :: _ => c = ',' ∨ isSpace c = true

theorem EndsValue.not_numeric {c : Char} (h : EndsValue (c :: rest)) : isNumeric c = false := by
  rcases h with rfl | h
  · decide
  · simp only [isSpace, Bool.or_eq_true, beq_iff_eq] at h
    rcases h with ((rfl | rfl) | rfl) | rfl <;> decide

/-- What is left of a number stands in front of the rest. -/
def Leaves (rest text : List Char) : Prop :=
  ∃ left, text = left ++ rest ∧ ∀ c ∈ left, isNumeric c = true

theorem Leaves.tail {c : Char} (hrest : EndsValue rest) (h : Leaves rest (c :: cs)) (hc : isNumeric c = true) :
    Leaves rest cs := by
  obtain ⟨left, htext, hleft⟩ := h
  cases left with
  | nil =>
    rw [List.nil_append] at htext
    rw [← htext] at hrest
    exact absurd hc (by simp [hrest.not_numeric])
  | cons d left =>
    obtain ⟨rfl, rfl⟩ := List.cons.inj htext
    exact ⟨left, rfl, fun c hc => hleft c (List.mem_cons_of_mem _ hc)⟩

theorem Leaves.digits (hrest : EndsValue rest) (h : Leaves rest cs) : Leaves rest (digits cs).2 := by
  rw [Json.digits]
  induction cs with
  | nil => exact h
  | cons c cs ih =>
    by_cases hc : c.isDigit = true
    · rw [List.dropWhile_cons_of_pos hc]
      exact ih (h.tail hrest (Decimal.isNumeric_of_isDigit hc))
    · rwa [List.dropWhile_cons_of_neg hc]

theorem Leaves.wholeDigits (hrest : EndsValue rest) (h : Leaves rest cs) : Leaves rest (wholeDigits cs).2 := by
  unfold Json.wholeDigits
  split
  · exact h.tail hrest (by decide)
  · exact h.digits hrest

theorem Leaves.fractionDigits (hrest : EndsValue rest) (h : Leaves rest cs) :
    Leaves rest (fractionDigits cs).2 := by
  unfold Json.fractionDigits
  split
  · split
    · exact h
    · exact (h.tail hrest (by decide)).digits hrest
  · exact h

theorem Leaves.exponent {e : Int} (hrest : EndsValue rest) (h : Leaves rest cs)
    (he : exponent? cs = some (e, text)) : Leaves rest text := by
  unfold exponent? at he
  split at he
  · rename_i c cs
    split at he
    · rename_i hc
      have hcs : Leaves rest cs := by
        refine h.tail hrest ?_
        rcases Bool.or_eq_true_iff.1 hc with hc | hc
        · rw [eq_of_beq hc]
          decide
        · rw [eq_of_beq hc]
          decide
      have hsign : Leaves rest (sign cs).2 := by
        unfold sign
        split
        · exact hcs.tail hrest (by decide)
        · exact hcs.tail hrest (by decide)
        · exact hcs
      dsimp only at he
      split at he
      · cases he
      · cases he
        exact hsign.digits hrest
    · cases he
  · cases he

/-- A token that stands for a value of its own. -/
def Token.IsNumber : Token → Prop
  | .integer _ _ | .scalar _ => True
  | _ => False

theorem Leaves.number {negative : Bool} (hrest : EndsValue rest) (h : Leaves rest cs)
    (hn : number? negative cs = some (t, text)) : t.IsNumber ∧ Leaves rest text := by
  have hfraction := (h.wholeDigits hrest).fractionDigits hrest
  unfold number? at hn
  dsimp only at hn
  split at hn
  · cases hn
  · split at hn
    · rename_i he
      cases hn
      exact ⟨trivial, hfraction.exponent hrest he⟩
    · split at hn <;> cases hn <;> exact ⟨trivial, hfraction⟩

theorem isNumeric_cases {c : Char} (h : isNumeric c = true) :
    isSpace c = false ∧ punctuation? c = none ∧ c ∉ ['n', 't', 'f', 'N', 'I', '\x22'] := by
  rcases Bool.or_eq_true_iff.1 h with hd | hm
  · obtain ⟨hs, hp, hne⟩ := isDigit_cases hd
    simp only [List.mem_cons, List.not_mem_nil, or_false, not_or] at hne ⊢
    exact ⟨hs, hp, hne.1, hne.2.1, hne.2.2.1, hne.2.2.2.1, hne.2.2.2.2.1, hne.2.2.2.2.2.2⟩
  · simp only [decide_eq_true_eq, List.mem_cons, List.not_mem_nil, or_false] at hm
    rcases hm with rfl | rfl | rfl | rfl | rfl <;> exact ⟨by decide, by decide, by decide⟩

theorem named_of_numeric {c : Char} (hc : isNumeric c = true) (hrest : EndsValue rest) (h : Leaves rest cs) :
    named? (c :: cs) = none := by
  have hne := (isNumeric_cases hc).2.2
  simp only [List.mem_cons, List.not_mem_nil, or_false, not_or] at hne
  by_cases hminus : c = '-'
  · have hI : ∀ tail, cs ≠ 'I' :: tail := by
      rintro tail rfl
      obtain ⟨left, htext, hleft⟩ := h
      cases left with
      | nil =>
        rw [List.nil_append] at htext
        rw [← htext] at hrest
        rcases hrest with h | h <;> exact absurd h (by decide)
      | cons d left =>
        obtain ⟨rfl, -⟩ := List.cons.inj htext
        exact absurd (hleft _ List.mem_cons_self) (by decide)
    subst hminus
    cases cs with
    | nil => rfl
    | cons d cs =>
      have hd : d ≠ 'I' := fun he => hI cs (by rw [he])
      simp [named?, namedValues, hd.symm]
  · refine named_of_not_start cs ?_
    simp only [List.mem_cons, List.not_mem_nil, or_false, not_or]
    exact ⟨hne.1, hne.2.1, hne.2.2.1, hne.2.2.2.1, hne.2.2.2.2.1, hminus⟩

theorem Leaves.tokenAt {c : Char} (hc : isNumeric c = true) (hrest : EndsValue rest) (h : Leaves rest cs)
    (ht : tokenAt? c cs = some (t, text)) : t.IsNumber ∧ Leaves rest text := by
  obtain ⟨-, hp, hne⟩ := isNumeric_cases hc
  simp only [List.mem_cons, List.not_mem_nil, or_false, not_or] at hne
  simp only [tokenAt?, hp, named_of_numeric hc hrest h, beq_iff_eq, hne, if_false] at ht
  split at ht
  · exact h.number hrest ht
  · have hwhole : Leaves rest (c :: cs) := by
      obtain ⟨left, rfl, hleft⟩ := h
      exact ⟨c :: left, rfl, List.forall_mem_cons.2 ⟨hc, hleft⟩⟩
    exact hwhole.number hrest ht

/-! ### Going on behind a value -/

/-- The machine fails, or goes on with the rest as if some value had been complete from the start. -/
def GoesOn (limits : Limits) (s : State) (text : List Char) (stack : List Frame) (rest : List Char) : Prop :=
  (∃ e, run limits s text = .error e) ∨ ∃ v, run limits s text = run limits (complete v stack) rest

/-- The text is read as some value, if at all. -/
def Continues (limits : Limits) (text : List Char) : Prop :=
  ∀ s stack rest, Awaits limits s stack → EndsValue rest → GoesOn limits s (text ++ rest) stack rest

theorem GoesOn.of_eq {text' : List Char} {s' : State} (h : GoesOn limits s' text' stack rest)
    (he : run limits s text = run limits s' text') : GoesOn limits s text stack rest := by
  rwa [GoesOn, he]

theorem goesOn_error {e : ReadFault} (h : Begins text t cs) (hs : step limits s t = .error e) :
    GoesOn limits s text stack rest := by
  refine .inl ⟨e, ?_⟩
  rw [run_of_begins h, hs]
  rfl

theorem run_of_no_token {c : Char} (hd : text.dropWhile isSpace = c :: cs) (ht : tokenAt? c cs = none) (s : State) :
    run limits s text = .error .malformed := by
  rw [run.eq_def]
  split
  · rename_i heq
    rw [hd] at heq
    cases heq
  · rename_i heq
    rw [hd] at heq
    cases heq
    split
    · rfl
    · rename_i heq
      rw [ht] at heq
      cases heq

theorem run_after_value {c : Char} (hc : isNumeric c = true) (hrest : EndsValue rest) (h : Leaves rest cs) :
    ∃ e, run limits (complete v stack) (c :: cs) = .error e := by
  have hspace := (isNumeric_cases hc).1
  have hd : (c :: cs).dropWhile isSpace = c :: cs := List.dropWhile_cons_of_neg (by simp [hspace])
  cases ht : tokenAt? c cs with
  | none => exact ⟨.malformed, run_of_no_token hd ht _⟩
  | some p =>
    obtain ⟨t, text⟩ := p
    obtain ⟨hnumber, -⟩ := Leaves.tokenAt hc hrest h ht
    have hstep : step limits (complete v stack) t = .error .malformed := by
      cases t with
      | integer | scalar => rcases stack with _ | ⟨_ | _, _⟩ <;> rfl
      | _ => exact hnumber.elim
    refine ⟨.malformed, ?_⟩
    rw [run_of_begins ⟨c, cs, hd, ht⟩, hstep]
    rfl

theorem continues_numeric (hcs : ∀ c ∈ cs, isNumeric c = true) (hne : cs ≠ []) : Continues limits cs := by
  intro s stack rest hs hrest
  obtain ⟨c, cs, rfl⟩ := List.exists_cons_of_ne_nil hne
  obtain ⟨hc, hcs⟩ := List.forall_mem_cons.1 hcs
  have hleaves : Leaves rest (cs ++ rest) := ⟨cs, rfl, hcs⟩
  have hd : (c :: (cs ++ rest)).dropWhile isSpace = c :: (cs ++ rest) :=
    List.dropWhile_cons_of_neg (by simp [(isNumeric_cases hc).1])
  rw [List.cons_append]
  cases ht : tokenAt? c (cs ++ rest) with
  | none => exact .inl ⟨.malformed, run_of_no_token hd ht _⟩
  | some p =>
    obtain ⟨t, text⟩ := p
    obtain ⟨hnumber, left, rfl, hleft⟩ := Leaves.tokenAt hc hrest hleaves ht
    have hbegins : Begins (c :: (cs ++ rest)) t (left ++ rest) := ⟨c, cs ++ rest, hd, ht⟩
    have hstart : (∃ e, step limits s t = .error e) ∨ ∃ v, step limits s t = .ok (complete v stack) := by
      cases t with
      | scalar v =>
        rw [hs (.scalar v) nofun]
        exact .inr ⟨v, rfl⟩
      | integer negative ds =>
        rw [hs (.integer negative ds) nofun, startValue]
        split
        · exact .inl ⟨_, rfl⟩
        · exact .inr ⟨_, rfl⟩
      | _ => exact hnumber.elim
    rcases hstart with ⟨e, he⟩ | ⟨v, hv⟩
    · exact goesOn_error hbegins he
    · rw [GoesOn, run_step hbegins hv]
      cases left with
      | nil => exact .inr ⟨v, rfl⟩
      | cons d left =>
        obtain ⟨hd, hleft⟩ := List.forall_mem_cons.1 hleft
        exact .inl (run_after_value hd hrest ⟨left, rfl, hleft⟩)

theorem continues_token (h : ∀ rest, Begins (cs ++ rest) t rest)
    (hv : ∀ stack, startValue limits stack t = .ok (complete v stack)) : Continues limits cs := by
  intro s stack rest hs _
  exact .inr ⟨v, run_token hs (h rest) (hv stack)⟩

theorem continues_float (x : Float) : Continues limits (Decimal.floatText numberWords x).toList := by
  rw [Decimal.floatText]
  split
  · rename_i negative b _
    rw [String.toList_ofList]
    refine continues_numeric (fun c hc => ?_) ?_
    · rcases List.mem_append.1 hc with hc | hc
      · cases negative with
        | false => cases hc
        | true =>
          obtain rfl := List.mem_singleton.1 hc
          decide
      · exact Decimal.isNumeric_unsigned b c hc
    · simp [Decimal.unsigned_ne_nil]
  · rename_i negative _
    split
    · exact continues_token (t := .scalar (.float (0.0 / 0.0))) (fun rest => .of_token (by decide) rfl) fun _ => rfl
    · cases negative with
      | false =>
        exact continues_token (t := .scalar (.float (1.0 / 0.0))) (fun rest => .of_token (by decide) rfl) fun _ => rfl
      | true =>
        exact continues_token (t := .scalar (.float (-1.0 / 0.0))) (fun rest => .of_token (by decide) rfl) fun _ => rfl

theorem continues_scalar (v : Json) : Continues limits (scalar .unicode v) := by
  cases v with
  | bool b => exact continues_token (Begins.bool b) fun _ => rfl
  | str x => exact continues_token (Begins.string x) fun _ => rfl
  | float x => exact continues_float x
  | int n =>
    rw [scalar, Decimal.intText, String.toList_ofList]
    refine continues_numeric (fun c hc => ?_) (by simp [Nat.toDigits_ne_nil])
    rcases List.mem_append.1 hc with hc | hc
    · split at hc
      · obtain rfl := List.mem_singleton.1 hc
        decide
      · cases hc
    · exact Decimal.isNumeric_toDigits hc
  | null | arr | obj => exact continues_token Begins.null fun _ => rfl

theorem endsValue_prettyItems (level : Nat) (vs : List Json) (rest : List Char) :
    EndsValue (prettyItems .unicode level vs ++ rest) := by
  cases vs with
  | nil => exact .inr (by decide)
  | cons v vs => exact .inl rfl

theorem endsValue_prettyMembers (level : Nat) (ms : Members) (rest : List Char) :
    EndsValue (prettyMembers .unicode level ms ++ rest) := by
  cases ms with
  | nil => exact .inr (by decide)
  | cons m ms => exact .inl rfl

theorem goesOn_open {next : State} (hopen : t ≠ .closeArray)
    (hstart : startValue limits stack t = if stack.length < limits.depth then .ok next else .error .tooDeep)
    (hs : Awaits limits s stack) (hb : Begins text t cs) (h : GoesOn limits next cs stack rest) :
    GoesOn limits s text stack rest := by
  have hstep := (hs t hopen).trans hstart
  split at hstep
  · exact h.of_eq (run_step hb hstep)
  · exact goesOn_error hb hstep

/-- Behind a value that goes on the machine goes on as it does with the value complete. -/
theorem GoesOn.trans {stack' : List Frame} {rest' : List Char} (h : GoesOn limits s text stack rest)
    (h' : ∀ v, GoesOn limits (complete v stack) rest stack' rest') : GoesOn limits s text stack' rest' := by
  rcases h with ⟨e, he⟩ | ⟨v, hv⟩
  · exact .inl ⟨e, he⟩
  · exact (h' v).of_eq hv

mutual

theorem continues_prettyAt : ∀ (v : Json) (level : Nat), Continues limits (prettyAt .unicode level v)
  | .null, _ => continues_scalar .null
  | .bool b, _ => continues_scalar (.bool b)
  | .int n, _ => continues_scalar (.int n)
  | .float x, _ => continues_scalar (.float x)
  | .str x, _ => continues_scalar (.str x)
  | .arr [], _ => by
    intro s stack rest hs _
    refine goesOn_open (t := .openArray) nofun rfl hs (.punctuation (by decide) rfl) (.inr ⟨.arr [], ?_⟩)
    exact run_step (.punctuation (by decide) rfl) rfl
  | .arr (v :: vs), level => by
    intro s stack rest hs _
    rw [prettyAt_items]
    refine goesOn_open (t := .openArray) nofun rfl hs (.punctuation (by decide) rfl) ?_
    have hfirst := continues_prettyAt v (level + 1) (.firstItem stack) (.items [] :: stack) _ awaits_firstItem
      (endsValue_prettyItems level vs rest)
    exact (hfirst.of_eq (run_newline _ _ _)).trans fun w => goesOn_prettyItems vs level [w] stack rest
  | .obj [], _ => by
    intro s stack rest hs _
    refine goesOn_open (t := .openObject) nofun rfl hs (.punctuation (by decide) rfl) (.inr ⟨.obj [], ?_⟩)
    exact run_step (.punctuation (by decide) rfl) rfl
  | .obj ((k, v) :: ms), level => by
    intro s stack rest hs _
    rw [prettyAt_members]
    refine goesOn_open (t := .openObject) nofun rfl hs (.punctuation (by decide) rfl) ?_
    have hfirst := continues_prettyAt v (level + 1) _ (.members [] k :: stack) _ awaits_value
      (endsValue_prettyMembers level ms rest)
    refine (hfirst.of_eq ((run_newline _ _ _).trans (run_key k [] _ rfl))).trans fun w => ?_
    exact goesOn_prettyMembers ms level (put k w []) stack rest

theorem goesOn_prettyItems : ∀ (vs : List Json) (level : Nat) (done : List Json) (stack : List Frame)
    (rest : List Char), GoesOn limits (.afterItem done stack) (prettyItems .unicode level vs ++ rest) stack rest
  | [], level, done, _, rest => .inr ⟨.arr done.reverse, run_lastItem level done rest⟩
  | v :: vs, level, done, stack, rest => by
    have hnext := continues_prettyAt v (level + 1) (.value (.items done :: stack)) _ _ awaits_value
      (endsValue_prettyItems level vs rest)
    exact (hnext.of_eq (run_nextItem level done v vs rest)).trans fun w =>
      goesOn_prettyItems vs level (w :: done) stack rest

theorem goesOn_prettyMembers : ∀ (ms : Members) (level : Nat) (done : Members) (stack : List Frame)
    (rest : List Char), GoesOn limits (.afterMember done stack) (prettyMembers .unicode level ms ++ rest) stack rest
  | [], level, done, _, rest => .inr ⟨.obj done, run_lastMember level done rest⟩
  | (k, v) :: ms, level, done, stack, rest => by
    have hnext := continues_prettyAt v (level + 1) (.value (.members done k :: stack)) _ _ awaits_value
      (endsValue_prettyMembers level ms rest)
    exact (hnext.of_eq (run_nextMember level done k v ms rest)).trans fun w =>
      goesOn_prettyMembers ms level (put k w done) stack rest

end

/-- The machine fails, or goes on with the rest as if an object with the member had been complete. -/
def Gets (limits : Limits) (s : State) (text : List Char) (k : String) (v : Json) (stack : List Frame)
    (rest : List Char) : Prop :=
  (∃ e, run limits s text = .error e) ∨
    ∃ ms : Members, ms.lookup k = some v ∧ run limits s text = run limits (complete (.obj ms) stack) rest

/-- The member is still to be read, or it was read and its key does not come again. -/
def Due (k : String) (v : Json) (done ms : Members) : Prop :=
  (k, v) ∈ ms ∨ k ∉ ms.map (·.1) ∧ done.lookup k = some v

section

variable {k : String} {level : Nat} {done : Members}

theorem Gets.of_eq {text' : List Char} {s' : State} (h : Gets limits s' text' k v stack rest)
    (he : run limits s text = run limits s' text') : Gets limits s text k v stack rest := by
  rwa [Gets, he]

variable (hl : limits.digits = some digitLimit) (hv : IsPlain v) (hd : stack.length + 1 + v.depth ≤ limits.depth)

include hl hv hd

theorem gets_value {k₁ : String} {v₁ : Json} {ms : Members} (hk : IsKeyed ((k₁, v₁) :: ms))
    (hms : ∀ done, Due k v done ms →
      Gets limits (.afterMember done stack) (prettyMembers .unicode level ms ++ rest) k v stack rest)
    (h : Due k v done ((k₁, v₁) :: ms)) :
    Gets limits (.value (.members done k₁ :: stack))
      (prettyAt .unicode (level + 1) v₁ ++ (prettyMembers .unicode level ms ++ rest)) k v stack rest := by
  have hfresh := (isKeyed_cons.1 hk).1
  have hput : ∀ w, (put k₁ w done).lookup k = if k = k₁ then some w else done.lookup k :=
    fun w => lookup_put k₁ k w done
  by_cases hhead : (k, v) = (k₁, v₁)
  · cases hhead
    have hexact := run_prettyAt hl v (level + 1) (.value (.members done k :: stack)) _
      (prettyMembers .unicode level ms ++ rest) hv (by simpa using hd) awaits_value
      (endsNumber_prettyMembers level ms rest)
    refine (hms (put k v done) (.inr ⟨hfresh, ?_⟩)).of_eq hexact
    rw [hput, if_pos rfl]
  · have hpending : ∀ w, Due k v (put k₁ w done) ms := by
      intro w
      rcases h with hmem | ⟨hnot, hdone⟩
      · exact .inl ((List.mem_cons.1 hmem).resolve_left hhead)
      · rw [List.map_cons, List.mem_cons, not_or] at hnot
        refine .inr ⟨hnot.2, ?_⟩
        rw [hput, if_neg hnot.1, hdone]
    have hsome : GoesOn limits (.value (.members done k₁ :: stack)) _ (.members done k₁ :: stack) _ :=
      continues_prettyAt v₁ (level + 1) _ _ _ awaits_value (endsValue_prettyMembers level ms rest)
    rcases hsome with ⟨e, he⟩ | ⟨w, hw⟩
    · exact .inl ⟨e, he⟩
    · exact (hms (put k₁ w done) (hpending w)).of_eq hw

theorem gets_prettyMembers {ms : Members} (hk : IsKeyed ms) (h : Due k v done ms) :
    Gets limits (.afterMember done stack) (prettyMembers .unicode level ms ++ rest) k v stack rest := by
  induction ms generalizing done with
  | nil =>
    rcases h with hmem | ⟨-, hdone⟩
    · cases hmem
    · exact .inr ⟨done, hdone, run_lastMember level done rest⟩
  | cons m ms ih =>
    obtain ⟨k₁, v₁⟩ := m
    exact (gets_value hl hv hd hk (fun done => ih (isKeyed_cons.1 hk).2) h).of_eq
      (run_nextMember level done k₁ v₁ ms rest)

end

/-- If the text of an object is read, a plain member of it is read as it was printed. -/
theorem member_of_read {ms : Members} {j : Json} {k : String} {blanks : String}
    (hl : limits.digits = some digitLimit) (hb : ∀ c ∈ blanks.toList, isSpace c = true) (hk : IsKeyed ms)
    (hmem : (k, v) ∈ ms) (hv : IsPlain v) (hd : v.depth + 1 ≤ limits.depth)
    (h : read limits ((Json.obj ms).toPretty .unicode ++ blanks) = .ok j) :
    ∃ ms', j = .obj ms' ∧ ms'.lookup k = some v := by
  obtain ⟨⟨k₁, v₁⟩, tail, rfl⟩ := List.exists_cons_of_ne_nil (List.ne_nil_of_mem hmem)
  have hdepth : ([] : List Frame).length + 1 + v.depth ≤ limits.depth := by
    rw [List.length_nil]
    omega
  have hgets : Gets limits (.value []) (prettyAt .unicode 0 (.obj ((k₁, v₁) :: tail)) ++ blanks.toList) k v []
      blanks.toList := by
    have hopen : step limits (.value []) .openObject = .ok (.firstKey []) :=
      if_pos (by rw [List.length_nil]; omega)
    have hvalue : Gets limits (.value [.members [] k₁]) (prettyAt .unicode 1 v₁ ++
        (prettyMembers .unicode 0 tail ++ blanks.toList)) k v [] blanks.toList :=
      gets_value hl hv hdepth hk (fun done => gets_prettyMembers hl hv hdepth (isKeyed_cons.1 hk).2) (.inl hmem)
    refine hvalue.of_eq ?_
    rw [prettyAt_members, run_step (.punctuation (by decide) rfl) hopen, run_newline, run_key k₁ [] _ rfl]
  rw [read, toPretty, String.toList_append, String.toList_ofList] at h
  rcases hgets with ⟨e, he⟩ | ⟨ms', hms', hrun⟩
  · rw [he] at h
    cases h
  · rw [hrun] at h
    change run limits (.finished (.obj ms')) blanks.toList = .ok j at h
    rw [run_finished _ hb] at h
    exact ⟨ms', (Except.ok.inj h).symm, hms'⟩

end Json

end Provision
