import Provision.Proofs.Json.Alike
import Provision.Proofs.Json.Tokens

/-!
# The printed order of keys

The text of a value keeps the keys of every object in their order, so values that differ at most in that
order have the same text only if they are the same (`Alike.eq_of_toPretty`). That is so also where numbers
that have no text are replaced before, as each is replaced in its place.
-/

namespace Provision.Json

variable {a b : List Char} {ms ns : List (String × Json)}

theorem string_append_inj {s t : String} (h : string .unicode s ++ a = string .unicode t ++ b) :
    s = t ∧ a = b := by
  have htail : ∀ (s : String) (rest : List Char),
      stringTail ⟨[], none⟩ ((string .unicode s ++ rest).tail) = some (s, rest) := by
    intro s rest
    have hstring := stringTail_string s.toList [] rest
    rw [List.reverse_nil, List.nil_append, String.ofList_toList] at hstring
    rw [string, List.cons_append, List.cons_append, List.tail_cons, List.append_assoc]
    exact hstring
  have hs := htail s a
  rw [h, htail t b] at hs
  cases hs
  exact ⟨rfl, rfl⟩

theorem alikeMembers_iff :
    AlikeMembers ms ns ↔ List.Forall₂ (fun m n => m.1 = n.1 ∧ m.2.Alike n.2) ms ns := by
  constructor
  · intro h
    induction ms generalizing ns with
    | nil =>
      obtain rfl := h
      exact .nil
    | cons m ms ih =>
      obtain ⟨w, ns', rfl, hv, hms⟩ := h
      exact .cons ⟨rfl, hv⟩ (ih hms)
  · intro h
    induction h with
    | nil => rfl
    | @cons m n ms ns hm _ ih =>
      obtain ⟨k, v⟩ := m
      obtain ⟨k', w⟩ := n
      obtain ⟨rfl, hv⟩ := hm
      exact ⟨w, ns, rfl, hv, ih⟩

theorem AlikeMembers.keys (h : AlikeMembers ms ns) : ms.map (·.1) = ns.map (·.1) := by
  have hall := alikeMembers_iff.1 h
  induction hall with
  | nil => rfl
  | cons hm _ ih => rw [List.map_cons, List.map_cons, hm.1, ih (alikeMembers_iff.2 ‹_›)]

theorem AlikeMembers.exists_of_mem {k : String} {v : Json} (h : AlikeMembers ms ns) (hv : (k, v) ∈ ms) :
    ∃ w, (k, w) ∈ ns ∧ v.Alike w := by
  have hall := alikeMembers_iff.1 h
  induction hall with
  | nil => cases hv
  | @cons m n ms ns hm hms ih =>
    rcases List.mem_cons.1 hv with rfl | hv
    · obtain ⟨k', w⟩ := n
      obtain ⟨rfl, hw⟩ := hm
      exact ⟨w, List.mem_cons_self, hw⟩
    · obtain ⟨w, hw, halike⟩ := ih (alikeMembers_iff.2 hms) hv
      exact ⟨w, List.mem_cons_of_mem _ hw, halike⟩

/-- Values of the same key are alike. -/
def AlikeValues (ms ns : List (String × Json)) : Prop :=
  ∀ k v w, (k, v) ∈ ms → (k, w) ∈ ns → v.Alike w

theorem AlikeValues.tail {m n : String × Json} (h : AlikeValues (m :: ms) (n :: ns)) :
    AlikeValues ms ns :=
  fun k v w hv hw => h k v w (List.mem_cons_of_mem _ hv) (List.mem_cons_of_mem _ hw)

theorem alikeValues_of_alike (hk : IsKeyed ms) (h : (obj ms).Alike (obj ns)) : AlikeValues ms ns := by
  obtain ⟨ns', reordered, heq, hperm, hms⟩ := h
  obtain rfl := obj.inj heq
  have hk' : IsKeyed reordered := by rwa [IsKeyed, ← hms.keys]
  intro k v w hv hw
  obtain ⟨w', hw', halike⟩ := hms.exists_of_mem hv
  have hlookup := lookup_of_mem hk' (hperm.mem_iff.2 hw)
  rw [lookup_of_mem hk' hw'] at hlookup
  exact Option.some.inj hlookup ▸ halike

mutual

theorem Alike.eq_of_prettyAt : ∀ {v w : Json} {l : Nat} {a b : List Char}, v.WellKeyed → v.Alike w →
    prettyAt .unicode l v.finite ++ a = prettyAt .unicode l w.finite ++ b → v = w ∧ a = b
  | .arr [], _, _, _, _, _, ⟨_, rfl, rfl⟩, heq => ⟨rfl, List.append_cancel_left heq⟩
  -- But for its first character a container that holds something is printed as what follows an item.
  | .arr (v :: vs), _, l, _, _, hks, ⟨_, rfl, w, ws, rfl, h, hs⟩, heq => by
    have hrest := congrArg (',' :: ·) (List.cons.inj heq).2
    obtain ⟨hitems, hab⟩ := AlikeItems.eq_of_prettyItems hks ⟨w, ws, rfl, h, hs⟩ hrest
    exact ⟨congrArg arr hitems, hab⟩
  | .obj [], w, l, _, _, _, h, heq => by
    obtain ⟨ns, reordered, rfl, hperm, rfl⟩ := h
    obtain rfl := hperm.symm.eq_nil
    exact ⟨rfl, List.append_cancel_left heq⟩
  | .obj (m :: ms), w, l, _, _, ⟨hk, hks⟩, h, heq => by
    obtain ⟨ns, -, rfl, -, -⟩ := id h
    cases ns with
    | nil => simp [finite, finiteMembers, prettyAt, newline] at heq
    | cons n ns =>
      have hrest := congrArg (',' :: ·) (List.cons.inj heq).2
      obtain ⟨hmembers, hab⟩ := AlikeValues.eq_of_prettyMembers hks (alikeValues_of_alike hk h) hrest
      exact ⟨congrArg obj hmembers, hab⟩
  | .null, _, _, _, _, _, rfl, heq | .bool _, _, _, _, _, _, rfl, heq | .int _, _, _, _, _, _, rfl, heq
  | .float _, _, _, _, _, _, rfl, heq | .str _, _, _, _, _, _, rfl, heq =>
    ⟨rfl, List.append_cancel_left heq⟩

theorem AlikeItems.eq_of_prettyItems : ∀ {vs ws : List Json} {l : Nat} {a b : List Char},
    WellKeyedItems vs → AlikeItems vs ws →
    prettyItems .unicode l (finiteItems vs) ++ a = prettyItems .unicode l (finiteItems ws) ++ b →
    vs = ws ∧ a = b
  | [], _, _, _, _, _, rfl, heq => ⟨rfl, List.append_cancel_left heq⟩
  | v :: vs, _, l, _, _, ⟨hv, hvs⟩, ⟨w, ws, rfl, h, hs⟩, heq => by
    simp only [finiteItems, prettyItems, List.cons_append, List.append_assoc] at heq
    obtain ⟨rfl, hrest⟩ := Alike.eq_of_prettyAt hv h (List.append_cancel_left (List.cons.inj heq).2)
    obtain ⟨rfl, hab⟩ := AlikeItems.eq_of_prettyItems hvs hs hrest
    exact ⟨rfl, hab⟩

theorem AlikeValues.eq_of_prettyMembers : ∀ {ms ns : List (String × Json)} {l : Nat} {a b : List Char},
    WellKeyedMembers ms → AlikeValues ms ns →
    prettyMembers .unicode l (finiteMembers ms) ++ a = prettyMembers .unicode l (finiteMembers ns) ++ b →
    ms = ns ∧ a = b
  | [], [], _, _, _, _, _, heq => ⟨rfl, List.append_cancel_left heq⟩
  | [], _ :: _, _, _, _, _, _, heq | _ :: _, [], _, _, _, _, _, heq => by
    simp [finiteMembers, prettyMembers, newline] at heq
  | (k, v) :: ms, (k', w) :: ns, l, _, _, ⟨hv, hms⟩, hvalues, heq => by
    simp only [finiteMembers, prettyMembers, List.cons_append, List.append_assoc] at heq
    obtain ⟨rfl, hvalue⟩ := string_append_inj (List.append_cancel_left (List.cons.inj heq).2)
    have hvw := hvalues k v w List.mem_cons_self List.mem_cons_self
    obtain ⟨rfl, hrest⟩ := Alike.eq_of_prettyAt hv hvw (List.cons.inj (List.cons.inj hvalue).2).2
    obtain ⟨rfl, hab⟩ := AlikeValues.eq_of_prettyMembers hms hvalues.tail hrest
    exact ⟨rfl, hab⟩

end

/-- Values that differ at most in the order of keys have the same text only if they are the same. -/
theorem Alike.eq_of_toPretty {v w : Json} (hk : v.WellKeyed) (h : v.Alike w)
    (heq : v.finite.toPretty .unicode = w.finite.toPretty .unicode) : v = w := by
  have hchars : prettyAt .unicode 0 v.finite ++ [] = prettyAt .unicode 0 w.finite ++ [] :=
    congrArg (· ++ []) (String.ofList_injective heq)
  exact (h.eq_of_prettyAt hk hchars).1

end Provision.Json
