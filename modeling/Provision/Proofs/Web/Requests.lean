import Provision.Proofs.Json.RoundTrip
import Provision.Proofs.Store.Reading
import Provision.Web.Request
import Provision.Web.Route

/-!
# Requests

What a request leads to and what it carries. A path of characters that stand for themselves is its own target
(`ofString_path`). A body is read by its content type and its bytes alone (`Request.SameBody.payload`), and the
text of an object, sent as it is, is read as the object (`payload_of_text`).
-/

namespace Provision.Web

variable {q q' : Request} {ms : Members} {method : String} {route : Route} {cs : List Char} {c : Char}

theorem toList_loop (bytes : ByteArray) (i : Nat) (xs : List UInt8) :
    ByteArray.toList.loop bytes i xs = xs.reverse ++ bytes.data.toList.drop i := by
  fun_induction ByteArray.toList.loop bytes i xs with
  | case1 i xs hi ih =>
    have hi' : i < bytes.data.toList.length := hi
    have hget : bytes.get! i = bytes.data.toList[i] := by
      rw [Array.getElem_toList]
      exact getElem!_pos bytes.data i hi
    rw [ih, List.reverse_cons, List.append_assoc, List.singleton_append, hget, List.drop_eq_getElem_cons hi']
  | case2 i xs hi =>
    have hi' : bytes.data.toList.length ≤ i := Nat.le_of_not_lt hi
    rw [List.drop_of_length_le hi', List.append_nil]

theorem toList_toUTF8 (cs : List Char) :
    (String.ofList cs).toUTF8.toList = cs.flatMap String.utf8EncodeChar := by
  rw [ByteArray.toList, toList_loop, String.toUTF8_eq_toByteArray, String.toByteArray_ofList, List.utf8Encode,
    List.toList_data_toByteArray]
  rfl

/-- Characters that neither mark a part of an address nor stand for others. -/
def isPathChar (c : Char) : Bool :=
  '!' ≤ c && c ≤ '~' && c ≠ '%' && !Address.isQueryMark c

theorem isPathChar_iff : isPathChar c = true ↔
    '!' ≤ c ∧ c ≤ '~' ∧ c ≠ '%' ∧ Address.isQueryMark c = false := by
  simp [isPathChar, and_assoc]

theorem utf8_of_isPathChar (h : isPathChar c = true) : Percent.utf8 c = [c.val.toUInt8] := by
  obtain ⟨-, hle, -⟩ := isPathChar_iff.1 h
  have hsize : c.utf8Size = 1 := if_pos (UInt32.le_trans hle (by decide))
  have hsingle : c.toString = String.ofList [c] := rfl
  rw [Percent.utf8, hsingle, toList_toUTF8, List.flatMap_singleton, String.utf8EncodeChar_eq_singleton hsize]

theorem bytes_path (h : ∀ c ∈ cs, isPathChar c = true) : Percent.bytes cs = cs.map (·.val.toUInt8) := by
  induction cs with
  | nil => rfl
  | cons c cs ih =>
    obtain ⟨hc, hcs⟩ := List.forall_mem_cons.1 h
    rw [Percent.bytes, utf8_of_isPathChar hc, ih hcs]
    · rfl
    · rintro a b rest rfl
      cases hc

theorem decode_path (h : ∀ c ∈ cs, isPathChar c = true) : Utf8.decode (cs.map (·.val.toUInt8)) = cs := by
  induction cs with
  | nil => rw [List.map_nil, Utf8.decode]
  | cons c cs ih =>
    obtain ⟨hc, hcs⟩ := List.forall_mem_cons.1 h
    obtain ⟨-, hle, -⟩ := isPathChar_iff.1 hc
    have hle' : c.toNat ≤ 126 := UInt32.le_iff_toNat_le.1 hle
    have hbyte : c.val.toUInt8.toNat = c.toNat := by
      rw [UInt32.toNat_toUInt8]
      exact Nat.mod_eq_of_lt (Nat.lt_of_le_of_lt hle' (by decide))
    have hlow : c.val.toUInt8 < 0x80 := by
      rw [UInt8.lt_iff_toNat_lt, hbyte]
      exact Nat.lt_of_le_of_lt hle' (by decide)
    rw [List.map_cons, Utf8.decode.eq_def]
    dsimp only
    rw [if_pos hlow, hbyte, Char.ofNat_toNat, ih hcs]

theorem ofChars_path (h : ∀ x ∈ '/' :: c :: cs, isPathChar x = true) (hc : c ≠ '/') :
    Address.ofChars ('/' :: c :: cs) = .ok ⟨[], [], '/' :: c :: cs⟩ := by
  have hkept : ('/' :: c :: cs).filter (!Address.isIgnored ·) = '/' :: c :: cs := by
    refine List.filter_eq_self.2 fun x hx => ?_
    obtain ⟨hle, -⟩ := isPathChar_iff.1 (h x hx)
    rw [Bool.not_eq_true', ← Bool.not_eq_true]
    intro hignored
    simp only [Address.isIgnored, Bool.or_eq_true, decide_eq_true_eq] at hignored
    rcases hignored with (rfl | rfl) | rfl <;> exact absurd hle (by decide)
  have hpath : ('/' :: c :: cs).takeWhile (!Address.isQueryMark ·) = '/' :: c :: cs := by
    refine List.takeWhile_eq_self_iff.2 fun x hx => ?_
    obtain ⟨-, -, -, hmark⟩ := isPathChar_iff.1 (h x hx)
    rw [hmark]
    rfl
  have hauthority : Address.cutAuthority ('/' :: c :: cs) = ([], '/' :: c :: cs) := by
    rw [Address.cutAuthority]
    rintro rest heq
    cases heq
    exact hc rfl
  have hblanks : ('/' :: c :: cs).dropWhile (· ≤ ' ') = '/' :: c :: cs := List.dropWhile_cons_of_neg (by decide)
  have hscheme : Address.cutScheme ('/' :: c :: cs) = ([], '/' :: c :: cs) := rfl
  simp only [Address.ofChars, hblanks, hkept, hscheme, hauthority, hpath]
  rfl

theorem ofString_path (h : ∀ x ∈ '/' :: c :: cs, isPathChar x = true) (hc : c ≠ '/') :
    Target.ofString (String.ofList ('/' :: c :: cs)) = .ok ⟨'/' :: c :: cs, false⟩ := by
  have haddress := ofChars_path h hc
  have hdecoded : Target.decoded ('/' :: c :: cs) = '/' :: c :: cs := by
    rw [Target.decoded, bytes_path h, decode_path h, List.dropWhile_cons_of_pos (by decide),
      List.dropWhile_cons_of_neg (by simpa using hc)]
  have hnone : (Authority.ofChars []).text = .ok [] := rfl
  have hauthority : Address.authorityText ⟨[], [], '/' :: c :: cs⟩ = .ok [] := hnone
  have hslashes : "//".toList.isPrefixOf ('/' :: c :: cs) = false := by
    simpa [List.isPrefixOf] using hc.symm
  have htext : Address.text ⟨[], [], '/' :: c :: cs⟩ = .ok ('/' :: c :: cs) := by
    simp only [Address.text, hauthority, hslashes]
    rfl
  rw [Target.ofString, String.toList_ofList]
  refine Except.bind_eq_ok.2 ⟨_, haddress, Except.bind_eq_ok.2 ⟨_, haddress, Except.bind_eq_ok.2 ⟨_, haddress, ?_⟩⟩⟩
  refine Except.bind_eq_ok.2 ⟨_, htext, Except.bind_eq_ok.2 ⟨_, hauthority, ?_⟩⟩
  rw [hdecoded]
  rfl

/-- The request can be sent, and leads to the route. -/
def Request.Asks (q : Request) (method : String) (route : Route) : Prop :=
  ∃ t, q.target? = .ok t ∧ Text.upper q.method = method ∧ t.destination method = .route route

theorem asks_of_path (htarget : q.target.toList = '/' :: c :: cs) (h : ∀ x ∈ '/' :: c :: cs, isPathChar x = true)
    (hc : c ≠ '/') (hheader : (q.contentType.toList.any fun c => c = '\r' || c = '\n') = false)
    (hmethod : Text.upper q.method = method) (hroute : Route.ofPath? ('/' :: c :: cs) = some route)
    (hallows : route.allows method = true) : q.Asks method route := by
  refine ⟨⟨'/' :: c :: cs, false⟩, ?_, hmethod, ?_⟩
  · rw [Request.target?, ← String.ofList_toList (s := q.target), htarget, ofString_path h hc]
    simp only [hheader, Bool.false_eq_true, if_false]
  · simp only [Target.destination, hroute, Route.destination, hallows, Bool.not_true, Bool.false_eq_true, if_false]

structure Request.SameBody (q q' : Request) : Prop where
  contentType : q.contentType = q'.contentType
  body : q.body = q'.body

theorem Request.SameBody.payload (h : q.SameBody q') : payload q = payload q' := by
  rw [Web.payload, Web.payload, Request.isTooLarge, Request.isTooLarge, h.contentType, h.body]

theorem wellKeyed_of_payload (h : payload q = .object ms) : (Json.obj ms).WellKeyed := by
  rw [payload] at h
  split at h
  · cases h
  · split at h
    · cases h
    · split at h
      · cases h
      · split at h
        · rename_i hread
          cases h
          exact Json.wellKeyed_of_read hread
        all_goals cases h

theorem detect_object (hms : ms ≠ []) : detect ((Json.obj ms).toPretty .unicode).toUTF8.toList = (.utf8, 0) := by
  obtain ⟨⟨k, v⟩, ms, rfl⟩ := List.exists_cons_of_ne_nil hms
  obtain ⟨rest, hchars⟩ : ∃ rest, Json.prettyAt .unicode 0 (.obj ((k, v) :: ms)) =
      '\x7b' :: '\n' :: ' ' :: ' ' :: rest := ⟨_, rfl⟩
  rw [Json.toPretty, toList_toUTF8, hchars]
  rfl

theorem bodyText_object (hms : ms ≠ []) :
    bodyText? ((Json.obj ms).toPretty .unicode).toUTF8 = some ((Json.obj ms).toPretty .unicode) := by
  rw [bodyText?, detect_object hms]
  dsimp only
  rw [ByteArray.extract_zero_size, Store.fromUTF8_toUTF8]

theorem payload_of_text (hbody : q.body = ((Json.obj ms).toPretty .unicode).toUTF8)
    (htype : isJsonType (mediaType q.contentType) = true)
    (hsize : ((Json.prettyAt .unicode 0 (.obj ms)).flatMap String.utf8EncodeChar).length ≤ bodyLimit)
    (hms : ms ≠ []) (hplain : Json.IsPlain (.obj ms)) (hdepth : (Json.obj ms).depth ≤ Json.Limits.standard.depth) :
    payload q = .object ms := by
  have hlarge : q.isTooLarge = false := by
    rw [Request.isTooLarge, hbody, Json.toPretty, String.toUTF8_eq_toByteArray, String.toByteArray_ofList,
      List.utf8Encode, List.size_toByteArray]
    exact decide_eq_false (Nat.not_lt.2 hsize)
  have hread : Json.read .standard ((Json.obj ms).toPretty .unicode ++ "") = .ok (.obj ms) :=
    Json.read_toPretty rfl hplain hdepth Store.blanks_nil
  rw [String.append_empty] at hread
  rw [payload, htype, hlarge, hbody, bodyText_object hms]
  simp only [hread, Bool.not_true, Bool.false_eq_true, if_false]

end Provision.Web
