import Provision.Proofs.Json.Leading
import Provision.Proofs.Web.Requests

/-!
# Recipe files as bodies of requests

The bytes of a file that is read as a recipe hold the same recipe where they are sent as the body of a request
(`payload_of_file`): no text of JSON begins like one in another encoding than UTF-8. Only the date of a recipe that
carries none depends on when it is read (`Recipe.ofJson_clock`).
-/

namespace Provision

theorem Decode.renamed_default {α : Type} {ms : Members} {wire other : String} {a b : α} {read : Json → Checked α}
    (h : renamed ms wire other a read = .ok b) (a' : α) : ∃ b', renamed ms wire other a' read = .ok b' := by
  unfold renamed at h ⊢
  split at h
  · exact ⟨a', rfl⟩
  · exact ⟨b, h⟩

/-- A recipe that is read at one time is read at any other, where it may get another date. -/
theorem Recipe.ofJson_clock {now : Timestamp} {v : Json} {r : Recipe} (h : ofJson now v = .ok r) (now' : Timestamp) :
    ∃ t, ofJson now' v = .ok { r with updatedAt := t } := by
  obtain ⟨ms, rfl, h⟩ := Decode.record_eq_ok h
  obtain ⟨g, updatedAt, hg, hdate, rfl⟩ := Checked.seq_eq_ok.1 h
  obtain ⟨t, hdate'⟩ := Decode.renamed_default hdate now'
  refine ⟨t, Checked.seq_eq_ok.2 ⟨g, t, hg, hdate', ?_⟩⟩
  obtain ⟨g', steps, hg', -, rfl⟩ := Checked.seq_eq_ok.1 hg
  obtain ⟨g'', vars, hg'', -, rfl⟩ := Checked.seq_eq_ok.1 hg'
  obtain ⟨g₃, project, hg₃, -, rfl⟩ := Checked.seq_eq_ok.1 hg''
  obtain ⟨schema, -, rfl⟩ := Checked.map_eq_ok.1 hg₃
  rfl

theorem Recipe.members_of_ofJson {now : Timestamp} {v : Json} {r : Recipe} (h : ofJson now v = .ok r) :
    ∃ ms, v = .obj ms := by
  obtain ⟨ms, hv, -⟩ := Decode.record_eq_ok h
  exact ⟨ms, hv⟩

theorem Store.parseRecipe_eq_ok {path : Path} {now : Timestamp} {bytes : ByteArray} {room : Room} {r : Recipe}
    (h : parseRecipe path now bytes room = .ok r) :
    ∃ text v, bytes = text.toUTF8 ∧ Json.read (.within room.reading) text = .ok v ∧ Recipe.ofJson now v = .ok r := by
  unfold parseRecipe at h
  split at h
  · cases h
  · rename_i text htext
    have hbytes : bytes = text.toUTF8 := by
      rw [String.fromUTF8?] at htext
      split at htext <;> cases htext
      rfl
    split at h
    · cases h
    · cases h
    · cases h
    · rename_i v hv
      split at h <;> cases h
      rename_i hr
      exact ⟨text, v, hbytes, hv, hr⟩

namespace Web

variable {q : Request} {text : String} {bytes : ByteArray} {path : Path} {now : Timestamp} {r : Recipe} {v : Json}
  {c : Char}

theorem utf8_plain (h : Json.IsPlainChar c) : ∃ b, String.utf8EncodeChar c = [b] ∧ b ≠ 0 ∧ b < 0x80 := by
  obtain ⟨hpos, hlt⟩ := h
  have hsize : c.utf8Size = 1 := by
    rw [Char.utf8Size_eq_one_iff, UInt32.le_iff_toNat_le]
    exact Nat.le_of_lt_succ hlt
  have hbyte : c.val.toUInt8.toNat = c.toNat := by
    rw [UInt32.toNat_toUInt8]
    exact Nat.mod_eq_of_lt (Nat.lt_trans hlt (by decide))
  refine ⟨_, String.utf8EncodeChar_eq_singleton hsize, fun hzero => ?_, ?_⟩
  · rw [hzero] at hbyte
    exact Nat.ne_of_lt hpos hbyte
  · rw [UInt8.lt_iff_toNat_lt, hbyte]
    exact hlt

theorem utf8_ne_zero (h : c ≠ '\x00') : ∃ b bs, String.utf8EncodeChar c = b :: bs ∧ b ≠ 0 := by
  have hpos : c.val.toNat ≠ 0 := fun hzero => h (Char.toNat_inj.1 hzero)
  have hne : ∀ n, 0 < n → n < 256 → UInt8.ofNat n ≠ 0 := by
    intro n hn hlt hzero
    have := congrArg UInt8.toNat hzero
    rw [UInt8.toNat_ofNat', Nat.mod_eq_of_lt hlt] at this
    exact Nat.ne_of_gt hn this
  unfold String.utf8EncodeChar
  dsimp only
  split
  · exact ⟨_, _, rfl, hne _ (by omega) (by omega)⟩
  · split
    · exact ⟨_, _, rfl, hne _ (by omega) (by omega)⟩
    · split <;> exact ⟨_, _, rfl, hne _ (by omega) (by omega)⟩

theorem unmarked_plain {b : UInt8} {bs : List UInt8} (hb : b ≠ 0) (hbs : ∀ rest, bs ≠ 0 :: rest) :
    unmarked (b :: bs) = .utf8 := by
  have hsecond : ∀ {c cs}, bs = c :: cs → c ≠ 0 := by
    rintro c cs rfl rfl
    exact hbs cs rfl
  unfold unmarked
  split
  · rename_i heq
    obtain ⟨rfl, hbs⟩ := List.cons.inj heq
    rw [if_neg hb, if_neg (hsecond hbs)]
  · rename_i heq
    obtain ⟨rfl, hbs⟩ := List.cons.inj heq
    rw [if_neg hb, if_neg (hsecond hbs)]
  · rfl

/-- Two bytes that are not zero, the first of them a character of its own, begin a text in UTF-8. -/
theorem detect_plain {b : UInt8} {bs : List UInt8} (hb : b ≠ 0) (hlt : b < 0x80) (hbs : ∀ rest, bs ≠ 0 :: rest) :
    detect (b :: bs) = (.utf8, 0) := by
  have hhigh : ∀ c : UInt8, 0x80 ≤ c → (c == b) = false := by
    refine fun c hc => beq_false_of_ne ?_
    rintro rfl
    exact absurd hlt (UInt8.not_lt.2 hc)
  have hzero : ((0x00 : UInt8) == b) = false := beq_false_of_ne hb.symm
  have hmarks : marks.find? (·.1.isPrefixOf (b :: bs)) = none := by
    simp only [marks, List.find?_cons, List.isPrefixOf, hhigh 0xFF (by decide), hhigh 0xFE (by decide),
      hhigh 0xEF (by decide), hzero, Bool.false_and, List.find?_nil]
  rw [detect, hmarks]
  dsimp only
  rw [unmarked_plain hb hbs]

theorem bodyText_of_read {limits : Json.Limits} (h : Json.read limits text = .ok v) :
    bodyText? text.toUTF8 = some text := by
  obtain ⟨c, cs, htext, hc, hcs⟩ := Json.leads_of_read h
  have hdetect : detect text.toUTF8.toList = (.utf8, 0) := by
    obtain ⟨b, hb, hne, hlt⟩ := utf8_plain hc
    rw [← String.ofList_toList (s := text), toList_toUTF8, htext, List.flatMap_cons, hb, List.singleton_append]
    refine detect_plain hne hlt fun rest hrest => ?_
    rcases cs with _ | ⟨d, ds⟩
    · cases hrest
    · obtain ⟨b', bs, hd, hne'⟩ := utf8_ne_zero fun hd : d = '\x00' => hcs ds (by rw [hd])
      rw [List.flatMap_cons, hd] at hrest
      exact hne' (List.cons.inj hrest).1
  rw [bodyText?, hdetect]
  dsimp only
  rw [ByteArray.extract_zero_size, Store.fromUTF8_toUTF8]

/-- The bytes of a recipe file, sent as JSON, are the object that the file holds, if there is room to read them. -/
theorem payload_of_file {here : Room} (h : Store.parseRecipe path now bytes here = .ok r) (hbody : q.body = bytes)
    (htype : isJsonType (mediaType q.contentType) = true) (hsize : q.isTooLarge = false) (there : Room) :
    ∃ ms, Recipe.ofJson now (.obj ms) = .ok r ∧ (payload q there = .object ms ∨ payload q there = .tooDeep) := by
  obtain ⟨text, v, rfl, hread, hr⟩ := Store.parseRecipe_eq_ok h
  obtain ⟨ms, rfl⟩ := Recipe.members_of_ofJson hr
  refine ⟨ms, hr, ?_⟩
  rw [payload, htype, hsize, hbody, bodyText_of_read hread]
  rcases Json.read_within hread there.reading with hread' | hread' <;>
    simp only [hread', Bool.not_true, Bool.false_eq_true, if_false, reduceCtorEq, or_false, or_true]

end Web

end Provision
