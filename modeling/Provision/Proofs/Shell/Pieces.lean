import Provision.Proofs.Shell.Words

/-!
# Lines whose values stand apart

A line is a list of pieces, and most lines have a blank, or an end, on both sides of each quoted value
(`Line.isSpaced`). Such a line is read piece by piece: each value is one word, whatever it holds, and a line break in
it ends no command (`Line.tokens_text`, `Line.newline_not_mem_words`). Two blanks more in front of a line change
nothing (`Line.words_indented`).
-/

namespace Provision.Shell

open Position

variable {c : Char} {cs rest : List Char} {q : Position} {ts us : List Token} {l : Line} {t : String}

/-- The reader is in a word, so what it reads begins with one. -/
def Position.InWord (q : Position) : Prop :=
  q ≠ between ∧ q ≠ behind false

instance (q : Position) : Decidable q.InWord :=
  inferInstanceAs (Decidable (_ ∧ _))

/-- A character goes to the word behind it. -/
def Position.Joins (q : Position) (c : Char) : Prop :=
  (q.next c).InWord ∧ ∃ text e, q.emit c = prepend text e

/-- What is read at a character does not depend on what is behind it. -/
def Position.Leads (q : Position) (c : Char) : Prop :=
  ∃ lead, q.emit c = (lead ++ ·) ∧ (q.InWord → ∃ w us, lead = .word w :: us)

theorem joins_of_id (hnext : (q.next c).InWord) (h : q.emit c = id) : q.Joins c :=
  ⟨hnext, [], false, h.trans (funext fun ts => (prepend_nil ts).symm)⟩

theorem emitBare_of_isBreak (hc : isBreak c = true) : ∃ lead, emitBare c = (lead ++ ·) := by
  by_cases hblank : isBlank c = true
  · exact ⟨[], funext fun ts => if_pos hblank⟩
  · have hoperator : isOperator c = true := by simpa [isBreak, hblank] using hc
    exact ⟨[.operator c], funext fun ts => (if_neg hblank).trans (if_pos hoperator)⟩

theorem emitBare_of_text (hc : isBreak c = false) (h : ∀ b, opened? b c = none) :
    emitBare c = prepend [c] (expandsBare c) := by
  obtain ⟨hblank, hoperator⟩ : isBlank c = false ∧ isOperator c = false := by simpa [isBreak] using hc
  funext ts
  simp [emitBare, hblank, hoperator, h]

theorem opened_cases (c : Char) : c = '\x27' ∨ c = '\x22' ∨ c = '\\' ∨ ∀ b, opened? b c = none := by
  by_cases hsingle : c = '\x27'
  · exact .inl hsingle
  by_cases hdouble : c = '\x22'
  · exact .inr (.inl hdouble)
  by_cases hslash : c = '\\'
  · exact .inr (.inr (.inl hslash))
  · exact .inr (.inr (.inr fun b => by simp [opened?, hsingle, hdouble, hslash]))

theorem emit_cases (q : Position) (c : Char) : q.Joins c ∨ q.Leads c := by
  cases q with
  | between =>
    by_cases hc : isBreak c = true
    · obtain ⟨lead, hlead⟩ := emitBare_of_isBreak hc
      exact .inr ⟨lead, hlead, fun h => absurd rfl h.1⟩
    · rw [Bool.not_eq_true] at hc
      rcases opened_cases c with rfl | rfl | rfl | hopened
      · exact .inl (joins_of_id (by decide) rfl)
      · exact .inl (joins_of_id (by decide) rfl)
      · exact .inr ⟨[], rfl, fun h => absurd rfl h.1⟩
      · have hnext : between.next c = bare := by simp [next, hc, hopened]
        exact .inl ⟨by rw [hnext]; decide, _, _, emitBare_of_text hc hopened⟩
  | bare =>
    by_cases hc : isBreak c = true
    · obtain ⟨lead, hlead⟩ := emitBare_of_isBreak hc
      exact .inr ⟨.word {} :: lead, funext fun ts => (if_pos hc).trans (by rw [hlead]; rfl), fun _ => ⟨_, _, rfl⟩⟩
    · have hemit : bare.emit c = emitBare c := funext fun ts => if_neg hc
      rw [Bool.not_eq_true] at hc
      rcases opened_cases c with rfl | rfl | rfl | hopened
      · exact .inl (joins_of_id (by decide) rfl)
      · exact .inl (joins_of_id (by decide) rfl)
      · exact .inl (joins_of_id (by decide) rfl)
      · have hnext : bare.next c = bare := by simp [next, hc, hopened]
        exact .inl ⟨by rw [hnext]; decide, _, _, hemit.trans (emitBare_of_text hc hopened)⟩
  | behind b =>
    by_cases hc : c = '\n'
    · subst hc
      cases b with
      | false => exact .inr ⟨[], rfl, fun h => absurd rfl h.2⟩
      | true => exact .inl (joins_of_id (by decide) rfl)
    · have hnext : (behind b).next c = bare := by simp [next, hc]
      exact .inl ⟨by rw [hnext]; decide, [c], false, funext fun ts => if_neg hc⟩
  | single =>
    by_cases hc : c = '\x27'
    · subst hc
      exact .inl (joins_of_id (by decide) rfl)
    · have hnext : single.next c = single := if_neg hc
      exact .inl ⟨by rw [hnext]; decide, [c], false, funext fun ts => if_neg hc⟩
  | double =>
    by_cases hquote : c = '\x22'
    · subst hquote
      exact .inl (joins_of_id (by decide) rfl)
    by_cases hslash : c = '\\'
    · subst hslash
      exact .inl (joins_of_id (by decide) rfl)
    · have hnext : double.next c = double := by simp [next, hquote, hslash]
      exact .inl ⟨by rw [hnext]; decide, [c], expandsQuoted c, funext fun ts => by simp [emit, hquote, hslash]⟩
  | guarded =>
    have hnext : guarded.next c = double := rfl
    by_cases hc : c = '\n'
    · subst hc
      exact .inl (joins_of_id (by decide) rfl)
    · exact .inl ⟨by rw [hnext]; decide, _, false, funext fun ts => if_neg hc⟩

theorem tokensFrom_between (h : q.after cs = between) : ∃ ts, tokensFrom q cs = some ts ∧
    (q.InWord → ∃ w us, ts = .word w :: us) ∧
    ∀ rest, tokensFrom q (cs ++ rest) = (tokensFrom between rest).map (ts ++ ·) := by
  induction cs generalizing q with
  | nil =>
    obtain rfl : q = between := h
    exact ⟨[], rfl, fun hq => absurd rfl hq.1, fun rest => Option.map_id'.symm⟩
  | cons c cs ih =>
    obtain ⟨ts, hts, hword, hrest⟩ := ih h
    refine ⟨q.emit c ts, by rw [tokensFrom, hts, Option.map_some], ?_⟩
    have hread : ∀ rest, tokensFrom q (c :: cs ++ rest) = (tokensFrom between rest).map (q.emit c ∘ (ts ++ ·)) :=
      fun rest => by rw [List.cons_append, tokensFrom, hrest, Option.map_map]
    rcases emit_cases q c with ⟨hnext, text, e, hemit⟩ | ⟨lead, hemit, hlead⟩
    · obtain ⟨w, us, rfl⟩ := hword hnext
      refine ⟨fun _ => ⟨⟨text ++ w.text, e || w.expands⟩, us, by rw [hemit]; rfl⟩, fun rest => ?_⟩
      rw [hread, hemit]
      rfl
    · refine ⟨fun hq => ?_, fun rest => ?_⟩
      · obtain ⟨w, us, rfl⟩ := hlead hq
        exact ⟨w, us ++ ts, by rw [hemit]; rfl⟩
      · rw [hread, hemit]
        exact congrArg (Option.map · _) (funext fun us => (List.append_assoc ..).symm)

/-! ### Lines -/

/-- What is read from a piece that stands apart. -/
def Piece.words : Piece → List Token
  | code t => (tokens t).getD []
  | double v => [.word ⟨v.toList, v.toList.any (· = '$')⟩]
  | single v => [.word (.plain v)]

/-- Code that is read on its own, and is not more than one line. -/
def isWhole (t : String) : Bool :=
  (tokens t).any fun ts => !ts.contains (.operator '\n')

theorem isWhole_iff : isWhole t = true ↔ ∃ ts, tokens t = some ts ∧ .operator '\n' ∉ ts := by
  rw [isWhole]
  cases tokens t <;> simp

theorem Piece.tokensFrom_value {p : Piece} (hp : ∀ t, p ≠ .code t) (h : Ends rest) :
    tokensFrom between (p.text.toList ++ rest) = (tokensFrom between rest).map (p.words ++ ·) := by
  cases p with
  | code t => exact absurd rfl (hp t)
  | double v =>
    rw [text, tokensFrom_double (.inl rfl), tokensFrom_bare h, Option.map_map]
    exact congrArg (Option.map · _) (funext fun ts => by simp [words, prepend])
  | single v =>
    rw [text, tokensFrom_singleQuoted h]
    rfl

namespace Line

def words (l : Line) : List Token :=
  l.flatMap Piece.words

/-- Code ends between two words if a value follows it, and begins with a break behind one. -/
def isSpaced : Line → Bool
  | [] => true
  | [.code t] => isWhole t
  | .code t :: p :: l => isWhole t && between.after t.toList = between && isSpaced (p :: l)
  | [_] => true
  | _ :: .code t :: l => t.toList.head?.any isBreak && isSpaced (.code t :: l)
  | _ :: _ :: _ => false

theorem words_cons (p : Piece) (l : Line) : words (p :: l) = p.words ++ words l :=
  List.flatMap_cons

theorem toList_text_cons (p : Piece) (l : Line) : (text (p :: l)).toList = p.text.toList ++ (text l).toList := by
  rw [text, List.map_cons, String.join_cons, String.toList_append]
  rfl

theorem toList_text_singleton (p : Piece) : (text [p]).toList = p.text.toList := by
  rw [toList_text_cons]
  exact List.append_nil _

theorem ends_text (h : t.toList.head?.any isBreak = true) (l : Line) : Ends (text (.code t :: l)).toList := by
  intro c hc
  cases ht : t.toList with
  | nil =>
    rw [ht] at h
    cases h
  | cons d ds =>
    rw [toList_text_cons, Piece.text, ht] at hc
    rw [ht] at h
    cases hc
    exact h

theorem tokens_text (h : l.isSpaced = true) : tokens l.text = some l.words := by
  have hone : ∀ p : Piece, words [p] = p.words := fun p => List.append_nil _
  fun_induction isSpaced l with
  | case1 => rfl
  | case2 t =>
    obtain ⟨ts, hts, -⟩ := isWhole_iff.1 h
    rw [hone, Piece.words, hts, tokens, toList_text_singleton]
    exact hts
  | case3 t p l ih =>
    simp only [Bool.and_eq_true, decide_eq_true_eq] at h
    obtain ⟨⟨-, hafter⟩, hl⟩ := h
    obtain ⟨ts, hts, -, hrest⟩ := tokensFrom_between hafter
    have hcode : Piece.words (.code t) = ts := by rw [Piece.words, tokens, hts, Option.getD_some]
    rw [tokens, toList_text_cons, Piece.text, hrest, ← tokens, ih hl, words_cons (.code t), hcode]
    rfl
  | case4 p hp =>
    rw [hone, tokens, toList_text_cons, Piece.tokensFrom_value hp (by decide)]
    exact congrArg some (List.append_nil _)
  | case5 p t l hp ih =>
    rw [Bool.and_eq_true] at h
    rw [tokens, toList_text_cons, Piece.tokensFrom_value hp (ends_text h.1 l), ← tokens, ih h.2]
    rfl
  | case6 => cases h

theorem newline_not_mem_words (h : l.isSpaced = true) : .operator '\n' ∉ l.words := by
  have hcode : ∀ t, isWhole t = true → .operator '\n' ∉ Piece.words (.code t) := by
    intro t ht
    obtain ⟨ts, hts, hline⟩ := isWhole_iff.1 ht
    rwa [Piece.words, hts, Option.getD_some]
  have hvalue : ∀ p : Piece, (∀ t, p ≠ .code t) → .operator '\n' ∉ p.words := by
    intro p hp
    cases p with
    | code t => exact absurd rfl (hp t)
    | double v => simp [Piece.words]
    | single v => simp [Piece.words]
  have hcons : ∀ (p : Piece) (l : Line), .operator '\n' ∉ p.words → .operator '\n' ∉ words l →
      .operator '\n' ∉ words (p :: l) := by
    intro p l hp hl
    rw [words_cons, List.mem_append, not_or]
    exact ⟨hp, hl⟩
  fun_induction isSpaced l with
  | case1 => exact List.not_mem_nil
  | case2 t => exact hcons _ _ (hcode t h) List.not_mem_nil
  | case3 t p l ih =>
    rw [Bool.and_eq_true, Bool.and_eq_true] at h
    exact hcons _ _ (hcode t h.1.1) (ih h.2)
  | case4 p hp => exact hcons _ _ (hvalue p hp) List.not_mem_nil
  | case5 p t l hp ih =>
    rw [Bool.and_eq_true] at h
    exact hcons _ _ (hvalue p hp) (ih h.2)
  | case6 => cases h

theorem words_indented (l : Line) : l.indented.words = l.words := by
  rw [indented]
  split
  · rfl
  · rfl

theorem isSpaced_indented (h : l.isSpaced = true) : l.indented.isSpaced = true := by
  rw [indented]
  split
  · exact h
  · cases l with
    | nil => rfl
    | cons p l => simpa [isSpaced] using ⟨by decide, h⟩

end Line

end Provision.Shell
