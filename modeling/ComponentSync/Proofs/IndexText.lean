import ComponentSync.Index.Json
import ComponentSync.Proofs.MomentText
import ComponentSync.Proofs.ScanKeys
/-! The index as text. The JSON an index is written as reads back as the same index
(`FileIndex.ofJson_toJson`) when its time and every entry's time are well-formed, its sizes fit
in 64 bits and its paths increase; and every index text that reads has its paths in increasing
order (`FileIndex.ofJson_sorted`). The reader is taken one layer at a time: a string's escapes,
a number's digits, an object's members, each with a lemma for the text the writer emits before
an arbitrary tail. -/
namespace ComponentSync.Json

/-! ### Strings -/

theorem byteCount_cons (c : Char) (cs : List Char) :
    byteCount (c :: cs) = c.utf8Size + byteCount cs := by
  have h : ∀ (l : List Char) (n : Nat),
      l.foldl (fun n c => n + c.utf8Size) n = n + l.foldl (fun n c => n + c.utf8Size) 0 := by
    intro l
    induction l with
    | nil => simp
    | cons d l ih => intro n; rw [List.foldl_cons, List.foldl_cons, ih, ih (0 + d.utf8Size)]; omega
  simp only [byteCount, List.foldl_cons]
  rw [h]
  omega

theorem hexValue_digitChar {d : Nat} (h : d < 16) : hexValue (Nat.digitChar d) = some d := by
  have hall : ∀ e ∈ List.range 16, hexValue (Nat.digitChar e) = some e := by decide
  exact hall d (List.mem_range.mpr h)

theorem utf8Size_digitChar {d : Nat} (h : d < 16) : (Nat.digitChar d).utf8Size = 1 := by
  have hall : ∀ e ∈ List.range 16, (Nat.digitChar e).utf8Size = 1 := by decide
  exact hall d (List.mem_range.mpr h)

theorem takeBytes_four {a b c d : Char} (ha : a.utf8Size = 1) (hb : b.utf8Size = 1)
    (hc : c.utf8Size = 1) (hd : d.utf8Size = 1) (more : List Char) :
    takeBytes 4 (a :: b :: c :: d :: more) = ([a, b, c, d], more, 0) := by
  have hmore : takeBytes 0 more = ([], more, 0) := by
    cases more with
    | nil => rfl
    | cons x more =>
      have := Char.utf8Size_pos x
      simp [takeBytes]
      omega
  simp [takeBytes, ha, hb, hc, hd, hmore]

theorem hex4_control {p q : Nat} (hp : p < 16) (hq : q < 16) (more : List Char) :
    hex4 ('0' :: '0' :: Nat.digitChar p :: Nat.digitChar q :: more) = .ok (p * 16 + q, more) := by
  have h0 : ('0' : Char).utf8Size = 1 := by decide
  have hcount : ¬ byteCount ('0' :: '0' :: Nat.digitChar p :: Nat.digitChar q :: more) < 4 := by
    simp only [byteCount_cons, utf8Size_digitChar hp, utf8Size_digitChar hq, h0]
    omega
  have hx : hexValue '0' = some 0 := by decide
  simp [hex4, hcount, takeBytes_four h0 h0 (utf8Size_digitChar hp) (utf8Size_digitChar hq),
    hexValue_digitChar hp, hexValue_digitChar hq, List.mapM_cons, hx]

theorem unicodeEscape_control {c : Char} (hc : c.toNat < 0x20) (more : List Char) :
    unicodeEscape ('0' :: '0' :: Nat.digitChar (c.toNat / 16) :: Nat.digitChar (c.toNat % 16) :: more) =
      .ok (c, more) := by
  have hn : c.toNat / 16 * 16 + c.toNat % 16 = c.toNat := by omega
  simp only [unicodeEscape, hex4_control (show c.toNat / 16 < 16 by omega)
    (show c.toNat % 16 < 16 by omega), hn]
  simp [bind, Except.bind, pure, Except.pure, throw, throwThe, MonadExceptOf.throw]
  rw [if_neg (by omega), if_pos (by omega)]

theorem readString_go_jsonEscape (c : Char) (fuel : Nat) (acc more : List Char) :
    readString.go (fuel + 1) acc ((jsonEscape c).toList ++ more) = readString.go fuel (c :: acc) more := by
  unfold jsonEscape
  split
  case h_8 hq hb _ _ _ _ _ =>
    split
    · next hc =>
      simp [readString.go, escape, unicodeEscape_control hc]
    · next hc =>
      simp only [Char.toString_eq_singleton, String.toList_singleton, List.singleton_append,
        readString.go, beq_iff_eq, if_neg hq, if_neg hb, if_neg hc]
  all_goals simp [readString.go, escape]

theorem jsonEscape_ne_nil (c : Char) : (jsonEscape c).toList ≠ [] := by
  unfold jsonEscape
  split
  case h_8 =>
    split <;> simp
  all_goals decide

theorem readString_go_escaped (cs : List Char) (fuel : Nat) (acc rest : List Char)
    (hfuel : ((cs.map jsonEscape).flatMap String.toList).length < fuel) :
    readString.go fuel acc (((cs.map jsonEscape).flatMap String.toList) ++ '"' :: rest) =
      .ok (String.ofList (acc.reverse ++ cs), rest) := by
  induction cs generalizing fuel acc with
  | nil =>
    obtain ⟨f, rfl⟩ : ∃ f, fuel = f + 1 := ⟨fuel - 1, by simp at hfuel; omega⟩
    simp [readString.go]
  | cons c cs ih =>
    have hc := List.length_pos_iff.mpr (jsonEscape_ne_nil c)
    simp only [List.map_cons, List.flatMap_cons, List.length_append] at hfuel
    obtain ⟨f, rfl⟩ : ∃ f, fuel = f + 1 := ⟨fuel - 1, by omega⟩
    rw [List.map_cons, List.flatMap_cons, List.append_assoc, readString_go_jsonEscape,
      ih f (c :: acc) (by omega)]
    simp

theorem jsonString_toList (s : String) :
    (jsonString s).toList = '"' :: (((s.toList.map jsonEscape).flatMap String.toList) ++ ['"']) := by
  simp [jsonString]

theorem readString_escaped (s : String) (rest : List Char) :
    readString (((s.toList.map jsonEscape).flatMap String.toList) ++ '"' :: rest) = .ok (s, rest) := by
  rw [readString, readString_go_escaped _ _ _ _
    (by simp only [List.length_append, List.length_cons]; omega)]
  simp

theorem readText_jsonString (expected : String) (s : String) (rest : List Char) :
    readText expected ((jsonString s).toList ++ rest) = .ok (s, rest) := by
  rw [jsonString_toList]
  simp [readText, skipSpace, isSpace, readString_escaped]

/-! ### Numbers -/

theorem digitOf_of_isDigit {c : Char} (h : c.isDigit = true) :
    digitOf c = some (c.toNat - '0'.toNat) := by
  have h' : '0' ≤ c ∧ c ≤ '9' := by
    simpa [Char.isDigit, Char.le_def] using h
  simp [digitOf, h']

/-- A text that cannot go on a number: it does not start with a digit, a point or an exponent. -/
def EndsNumber (rest : List Char) : Prop :=
  ∀ c ∈ rest.head?, digitOf c = none ∧ c ≠ '.' ∧ c ≠ 'e' ∧ c ≠ 'E'

theorem readTail_unsigned {rest : List Char} (hrest : EndsNumber rest) (sig : Nat) :
    readTail true sig rest = .ok (.unsigned sig, rest) := by
  unfold readTail
  split
  · next more => exact absurd rfl (hrest '.' rfl).2.1
  · next more => exact absurd rfl (hrest 'e' rfl).2.2.1
  · next more => exact absurd rfl (hrest 'E' rfl).2.2.2
  · rfl

theorem le_ofDigitChars (ds : List Char) (init : Nat) : init ≤ Nat.ofDigitChars 10 ds init := by
  rw [Nat.ofDigitChars_eq_ofDigitChars_zero]
  have := Nat.one_le_two_pow (n := ds.length)
  have := Nat.pow_le_pow_left (show 2 ≤ 10 by decide) ds.length
  have := Nat.le_mul_of_pos_left init (show 0 < 10 ^ ds.length by omega)
  omega

theorem integral_digits {ds rest : List Char} (hds : ∀ c ∈ ds, c.isDigit = true)
    (hrest : EndsNumber rest) (sig : Nat) (hval : Nat.ofDigitChars 10 ds sig ≤ u64Max) :
    readNumber.integral true sig (ds ++ rest) = .ok (.unsigned (Nat.ofDigitChars 10 ds sig), rest) := by
  induction ds generalizing sig with
  | nil =>
    cases rest with
    | nil => simp [readNumber.integral, readTail_unsigned hrest]
    | cons c rest =>
      simp [readNumber.integral, (hrest c rfl).1, readTail_unsigned hrest]
  | cons c ds ih =>
    have hd := digitOf_of_isDigit (hds c List.mem_cons_self)
    have hle := le_ofDigitChars ds (10 * sig + (c.toNat - '0'.toNat))
    rw [Nat.ofDigitChars_cons] at hval ⊢
    have hno : overflows sig (c.toNat - '0'.toNat) u64Max = false := by
      have := Char.isDigit_iff_toNat.mp (hds c List.mem_cons_self)
      have h48 : ('0' : Char).toNat = 48 := rfl
      simp only [overflows, u64Max, h48] at hle hval this ⊢
      simp
      omega
    rw [List.cons_append, readNumber.integral, hd]
    simp only [hno, Bool.false_eq_true, if_false]
    rw [Nat.mul_comm sig 10]
    exact ih (fun c hc => hds c (List.mem_cons_of_mem _ hc)) _ hval

theorem toDigits_cons_of_pos {n : Nat} (h : 0 < n) :
    ∃ c cs, Nat.toDigits 10 n = c :: cs ∧ c ≠ '0' := by
  induction n using Nat.strongRecOn with
  | ind n ih =>
    rw [Nat.toDigits_eq_if (by decide)]
    split
    · exact ⟨_, [], rfl, by simp; omega⟩
    · obtain ⟨c, cs, hcs, hc⟩ := ih (n / 10) (by omega) (by omega)
      exact ⟨c, cs ++ [Nat.digitChar (n % 10)], by rw [hcs]; rfl, hc⟩

theorem skipSpace_digit {c : Char} (hc : c.isDigit = true) (cs : List Char) :
    skipSpace (c :: cs) = c :: cs := by
  have := Char.isDigit_iff_toNat.mp hc
  have hs : isSpace c = false := by
    simp only [isSpace, Bool.or_eq_false_iff, beq_eq_false_iff_ne, ne_eq]
    refine ⟨⟨⟨?_, ?_⟩, ?_⟩, ?_⟩ <;> rintro rfl <;> simp at this
  simp [skipSpace, hs]

theorem readU64_toDigits {n : Nat} (hn : n ≤ u64Max) {rest : List Char} (hrest : EndsNumber rest) :
    readU64 (Nat.toDigits 10 n ++ rest) = .ok (n, rest) := by
  rcases Nat.eq_zero_or_pos n with rfl | hpos
  · have hz : readNumber true ('0' :: rest) = .ok (.unsigned 0, rest) := by
      cases rest with
      | nil => simp [readNumber, readTail_unsigned hrest]
      | cons c more => simp [readNumber, (hrest c rfl).1, readTail_unsigned hrest]
    simp [readU64, skipSpace, isSpace, digitOf, hz]
  · obtain ⟨c, cs, hcs, hc0⟩ := toDigits_cons_of_pos hpos
    have hdig : ∀ d ∈ c :: cs, d.isDigit = true := fun d hd =>
      Nat.isDigit_of_mem_toDigits (by decide) (by decide) (hcs ▸ hd)
    have hc := digitOf_of_isDigit (hdig c List.mem_cons_self)
    have hval : Nat.ofDigitChars 10 (c :: cs) 0 = n := by
      rw [← hcs]
      exact Nat.ofDigitChars_ten_toDigits
    rw [Nat.ofDigitChars_cons] at hval
    have hnum : readNumber true (c :: (cs ++ rest)) = .ok (.unsigned n, rest) := by
      unfold readNumber
      split
      · next heq => cases heq
      · next more heq => exact absurd (List.cons.inj heq).1 hc0
      · next d more _ heq =>
        obtain ⟨rfl, rfl⟩ := List.cons.inj heq
        simp only [hc]
        rw [integral_digits (fun d hd => hdig d (List.mem_cons_of_mem _ hd)) hrest _
          (by simp only [Nat.mul_zero, Nat.zero_add] at hval; omega)]
        simp only [Nat.mul_zero, Nat.zero_add] at hval
        rw [hval]
    have hminus : c ≠ '-' := by
      rintro rfl
      simp at hdig
    rw [hcs, List.cons_append]
    unfold readU64
    rw [skipSpace_digit (hdig c List.mem_cons_self)]
    split
    · next heq => cases heq
    · next more heq => exact absurd (List.cons.inj heq).1 hminus
    · next d more _ heq =>
      obtain ⟨rfl, rfl⟩ := List.cons.inj heq
      simp [hc, hnum]

/-! ### Objects -/

theorem skipSpace_spaces {ws : List Char} (hws : ∀ c ∈ ws, isSpace c = true) (cs : List Char) :
    skipSpace (ws ++ cs) = skipSpace cs := by
  induction ws with
  | nil => rfl
  | cons c ws ih =>
    rw [List.cons_append, skipSpace, List.dropWhile_cons, if_pos (hws c List.mem_cons_self)]
    exact ih (fun c hc => hws c (List.mem_cons_of_mem _ hc))

theorem skipSpace_cons {c : Char} (hc : isSpace c = false) (cs : List Char) :
    skipSpace (c :: cs) = c :: cs := by
  simp [skipSpace, hc]

theorem indent_isSpace (n : Nat) : ∀ c ∈ '\n' :: List.replicate n ' ', isSpace c = true := by
  intro c hc
  simp only [List.mem_cons, List.mem_replicate] at hc
  rcases hc with rfl | ⟨_, rfl⟩ <;> rfl

theorem blank_isSpace : ∀ c ∈ [' '], isSpace c = true := by
  simp [isSpace]

theorem readText_spaces {ws : List Char} (hws : ∀ c ∈ ws, isSpace c = true) (expected : String)
    (cs : List Char) : readText expected (ws ++ cs) = readText expected cs := by
  unfold readText
  rw [skipSpace_spaces hws]

theorem nextKey_first {ws : List Char} (hws : ∀ c ∈ ws, isSpace c = true) (k : String)
    (r : List Char) : nextKey true (ws ++ ((jsonString k).toList ++ r)) = .ok (some k, r) := by
  rw [jsonString_toList]
  unfold nextKey
  rw [skipSpace_spaces hws]
  simp [skipSpace, isSpace, readString_escaped]

theorem nextKey_next {ws : List Char} (hws : ∀ c ∈ ws, isSpace c = true) (k : String)
    (r : List Char) : nextKey false (',' :: (ws ++ ((jsonString k).toList ++ r))) = .ok (some k, r) := by
  rw [jsonString_toList]
  simp only [nextKey, skipSpace_cons (c := ',') rfl, Bool.false_eq_true, if_false]
  rw [skipSpace_spaces hws]
  simp [skipSpace, isSpace, readString_escaped]

theorem nextKey_close {ws : List Char} (hws : ∀ c ∈ ws, isSpace c = true) (first : Bool)
    (r : List Char) : nextKey first (ws ++ '}' :: r) = .ok (none, '}' :: r) := by
  unfold nextKey
  rw [skipSpace_spaces hws, skipSpace_cons (c := '}') rfl]
  rfl

theorem nextKey_brace (first : Bool) (r : List Char) :
    nextKey first ('}' :: r) = .ok (none, '}' :: r) := rfl

theorem colon_cons (r : List Char) : colon (':' :: r) = .ok r := by
  simp [colon, skipSpace, isSpace]

theorem endObject_brace (r : List Char) : endObject ('}' :: r) = .ok r := rfl

theorem readU64_spaces {ws : List Char} (hws : ∀ c ∈ ws, isSpace c = true) (cs : List Char) :
    readU64 (ws ++ cs) = readU64 cs := by
  unfold readU64
  rw [skipSpace_spaces hws]

section Entries

variable {σ α : Type} {fields : List (RecordField σ)}
  {whole : String → (List Char → Except ReadError (List Char)) → List Char → ReadError}

theorem readRecord_entries_field {fuel : Nat} {first : Bool} {st st' : σ} {cs vs rest : List Char}
    {k : String} {f : RecordField σ} (hkey : nextKey first cs = .ok (some k, ':' :: vs))
    (hfind : fields.find? (·.name == k) = some f) (hpresent : f.present st = false)
    (hread : f.read st vs = .ok (st', rest)) :
    readRecord.entries fields whole (fuel + 1) first st cs =
      readRecord.entries fields whole fuel false st' rest := by
  simp [readRecord.entries, hkey, hfind, hpresent, colon_cons, hread]

/-- A record whose fields all read: the entries from the opening brace on, the finished value
and the closing brace. -/
theorem readRecord_of_entries {name : String} {init st : σ} {finish : σ → Except String α} {v : α}
    {cs body tail after : List Char} (hcs : skipSpace cs = '{' :: body)
    (hentries : ∀ w fuel, body.length < fuel →
      readRecord.entries fields w fuel true init body = .ok (st, tail))
    (hfinish : finish st = .ok v) (hend : endObject tail = .ok after) :
    readRecord name fields init finish cs = .ok (v, after) := by
  unfold readRecord
  rw [hcs]
  simp [hentries _ _ (Nat.lt_succ_self _), hfinish, hend]

theorem readRecord_entries_end {fuel : Nat} {first : Bool} {st : σ} {cs rest : List Char}
    (hend : nextKey first cs = .ok (none, rest)) :
    readRecord.entries fields whole (fuel + 1) first st cs = .ok (st, rest) := by
  simp [readRecord.entries, hend]

variable {readValue : List Char → Except ReadError (α × List Char)}

theorem readMap_entries_item {fuel : Nat} {first : Bool} {acc : List (String × α)}
    {cs vs rest : List Char} {k : String} {v : α} (hkey : nextKey first cs = .ok (some k, ':' :: vs))
    (hread : readValue vs = .ok (v, rest)) :
    readMap.entries readValue (fuel + 1) first acc cs =
      readMap.entries readValue fuel false ((k, v) :: acc) rest := by
  simp [readMap.entries, hkey, colon_cons, hread]

theorem readMap_entries_end {fuel : Nat} {first : Bool} {acc : List (String × α)}
    {cs rest : List Char} (hend : nextKey first cs = .ok (none, rest)) :
    readMap.entries readValue (fuel + 1) first acc cs = .ok (acc.reverse, rest) := by
  simp [readMap.entries, hend]

/-- A map whose members all read: the entries from the opening brace on and the closing
brace. -/
theorem readMap_of_entries {cs body tail after : List Char} {pairs : List (String × α)}
    (hcs : skipSpace cs = '{' :: body)
    (hentries : ∀ fuel, body.length < fuel →
      readMap.entries readValue fuel true [] body = .ok (pairs, tail))
    (hend : endObject tail = .ok after) :
    readMap readValue cs = .ok (pairs, after) := by
  unfold readMap
  rw [hcs]
  simp [hentries _ (Nat.lt_succ_self _), hend]

/-! A property of the record state that every field's reader keeps. -/

theorem readRecord_entries_inv (P : σ → Prop)
    (hread : ∀ f ∈ fields, ∀ st cs st' rest, P st → f.read st cs = .ok (st', rest) → P st') :
    ∀ (fuel : Nat) (first : Bool) (st : σ) (cs : List Char) (st' : σ) (rest : List Char), P st →
      readRecord.entries fields whole fuel first st cs = .ok (st', rest) → P st' := by
  intro fuel
  induction fuel with
  | zero => intro first st cs st' rest _ h; cases h
  | succ fuel ih =>
    intro first st cs st' rest hst h
    unfold readRecord.entries at h
    split at h
    · cases h
    · cases h
      exact hst
    · split at h
      · next f hfind =>
        split at h
        · cases h
        · split at h
          · cases h
          · split at h
            · next st₁ rest₁ hf => exact ih _ _ _ _ _ (hread f (List.mem_of_find?_eq_some hfind) _ _ _ _ hst hf) h
            · cases h
      · split at h
        · cases h
        · split at h
          · exact ih _ _ _ _ _ hst h
          · cases h

theorem readRecord_items_inv (P : σ → Prop) {name : String} {n : Nat} :
    ∀ (fs : List (RecordField σ)),
      (∀ f ∈ fs, ∀ st cs st' rest, P st → f.read st cs = .ok (st', rest) → P st') →
      ∀ (i : Nat) (st : σ) (cs : List Char) (st' : σ) (rest : List Char), P st →
      readRecord.items name whole n i fs st cs = .ok (st', rest) → P st' := by
  intro fs
  induction fs with
  | nil =>
    intro _ i st cs st' rest hst h
    cases h
    exact hst
  | cons f more ih =>
    intro hread i st cs st' rest hst h
    unfold readRecord.items at h
    split at h
    · cases h
    · cases h
    · split at h
      · next st₁ rest₁ hf =>
        exact ih (fun g hg => hread g (List.mem_cons_of_mem _ hg)) _ _ _ _ _
          (hread f List.mem_cons_self _ _ _ _ hst hf) h
      · cases h

/-- A property of the record state that holds at the start and that every field's reader keeps
holds of the state a record that reads is finished from. -/
theorem readRecord_inv (P : σ → Prop) {name : String} {init : σ} {finish : σ → Except String α}
    {cs rest : List Char} {v : α} (hinit : P init)
    (hread : ∀ f ∈ fields, ∀ st cs st' rest, P st → f.read st cs = .ok (st', rest) → P st')
    (h : readRecord name fields init finish cs = .ok (v, rest)) :
    ∃ st, P st ∧ finish st = .ok v := by
  unfold readRecord at h
  split at h
  · cases h
  · dsimp only at h
    split at h
    · cases h
    · next st at_ hentries =>
      split at h
      · cases h
      · next v' hfin =>
        split at h
        · cases h
          exact ⟨st, readRecord_entries_inv P hread _ _ _ _ _ _ hinit hentries, hfin⟩
        · cases h
  · dsimp only at h
    split at h
    · cases h
    · next st at_ hitems =>
      split at h
      · cases h
      · next v' hfin =>
        split at h
        · cases h
          exact ⟨st, readRecord_items_inv P fields hread _ _ _ _ _ hinit hitems, hfin⟩
        · cases h
  · cases h

end Entries

end ComponentSync.Json

namespace ComponentSync

open Json

theorem readMoment_rfc3339 {t : Time.Instant} (ht : t.WellFormed) {ws : List Char}
    (hws : ∀ c ∈ ws, isSpace c = true) (r : List Char) :
    readMoment (ws ++ ((jsonString (t.rfc3339 true)).toList ++ r)) = .ok (t, r) := by
  simp [readMoment, readText_spaces hws, readText_jsonString, Time.Instant.parseRfc3339_rfc3339 ht]

/-- An entry the index text stores exactly: its size fits in 64 bits and its time is
well-formed. -/
def FileEntry.WellFormed (e : FileEntry) : Prop := e.size ≤ u64Max ∧ e.modified.WellFormed

theorem FileEntry.toJson_toList (e : FileEntry) (d : Nat) (r : List Char) :
    (e.toJson d).toList ++ r = '{' :: (('\n' :: List.replicate (2 * (d + 1)) ' ') ++
      ((jsonString "digest").toList ++ ':' :: ([' '] ++ ((jsonString e.digest).toList ++ ',' ::
      (('\n' :: List.replicate (2 * (d + 1)) ' ') ++ ((jsonString "size").toList ++ ':' ::
      ([' '] ++ (Nat.toDigits 10 e.size ++ ',' :: (('\n' :: List.replicate (2 * (d + 1)) ' ') ++
      ((jsonString "modified").toList ++ ':' :: ([' '] ++
      ((jsonString (e.modified.rfc3339 true)).toList ++
      (('\n' :: List.replicate (2 * d) ' ') ++ '}' :: r))))))))))))) := by
  have h1 : "\"digest\": ".toList = (jsonString "digest").toList ++ [':', ' '] := by decide
  have h2 : "\"size\": ".toList = (jsonString "size").toList ++ [':', ' '] := by decide
  have h3 : "\"modified\": ".toList = (jsonString "modified").toList ++ [':', ' '] := by decide
  unfold FileEntry.toJson
  simp only [String.toList_append, String.toList_ofList, h1, h2, h3, List.append_assoc]
  simp

theorem readEntry_toJson {e : FileEntry} (he : e.WellFormed) {ws : List Char}
    (hws : ∀ c ∈ ws, isSpace c = true) (d : Nat) (r : List Char) :
    readEntry (ws ++ ((e.toJson d).toList ++ r)) = .ok (e, r) := by
  obtain ⟨hsize, hmod⟩ := he
  have hnum : ∀ r, EndsNumber (',' :: r) := by simp [EndsNumber, digitOf]
  rw [FileEntry.toJson_toList]
  unfold readEntry
  refine readRecord_of_entries ((skipSpace_spaces hws _).trans (skipSpace_cons rfl _))
    (fun w fuel hfuel => ?_)
    (rfl : EntryDraft.finish ⟨some e.digest, some e.size, some e.modified⟩ = .ok e)
    (endObject_brace r)
  obtain ⟨f, rfl⟩ : ∃ f, fuel = f + 3 + 1 := ⟨fuel - 4, by simp at hfuel; omega⟩
  rw [readRecord_entries_field (nextKey_first (indent_isSpace _) "digest" _) rfl rfl
    (by simp only [readText_spaces blank_isSpace, readText_jsonString]; rfl)]
  rw [readRecord_entries_field (nextKey_next (indent_isSpace _) "size" _) rfl rfl
    (by simp only [readU64_spaces blank_isSpace, readU64_toDigits hsize (hnum _)]; rfl)]
  rw [readRecord_entries_field (nextKey_next (indent_isSpace _) "modified" _) rfl rfl
    (by simp only [readMoment_rfc3339 hmod blank_isSpace]; rfl)]
  exact readRecord_entries_end (nextKey_close (indent_isSpace (2 * d)) false r)

theorem fileMemberJson_toList (member : String × FileEntry) (r : List Char) :
    '\n' :: ((fileMemberJson member).toList ++ r) = ('\n' :: List.replicate 4 ' ') ++
      ((jsonString member.1).toList ++ ':' :: ([' '] ++ ((member.2.toJson 2).toList ++ r))) := by
  simp [fileMemberJson]

/-- The members of the files object after the first, each after a comma, up to the closing
brace. -/
theorem readMap_entries_members {l : List (String × FileEntry)} (hl : ∀ p ∈ l, p.2.WellFormed)
    (acc : List (String × FileEntry)) (fuel : Nat) (r : List Char)
    (hfuel : ((l.flatMap fun p => (",\n" ++ fileMemberJson p).toList) ++
      (('\n' :: List.replicate 2 ' ') ++ '}' :: r)).length < fuel) :
    readMap.entries readEntry fuel false acc
      ((l.flatMap fun p => (",\n" ++ fileMemberJson p).toList) ++
        (('\n' :: List.replicate 2 ' ') ++ '}' :: r)) = .ok (acc.reverse ++ l, '}' :: r) := by
  induction l generalizing acc fuel with
  | nil =>
    obtain ⟨f, rfl⟩ : ∃ f, fuel = f + 1 := ⟨fuel - 1, by simp at hfuel; omega⟩
    simpa using readMap_entries_end (nextKey_close (indent_isSpace 2) false r)
  | cons p l ih =>
    obtain ⟨f, rfl⟩ : ∃ f, fuel = f + 1 := ⟨fuel - 1, by simp at hfuel; omega⟩
    have hsplit : (",\n" ++ fileMemberJson p).toList = ',' :: '\n' :: (fileMemberJson p).toList := by
      simp
    rw [List.flatMap_cons, List.append_assoc, hsplit, List.cons_append, List.cons_append,
      fileMemberJson_toList] at hfuel ⊢
    rw [readMap_entries_item (nextKey_next (indent_isSpace 4) p.1 _)
      (readEntry_toJson (hl p List.mem_cons_self) blank_isSpace 2 _)]
    rw [ih (fun q hq => hl q (List.mem_cons_of_mem _ hq)) _ _ (by simp at hfuel ⊢; omega)]
    simp

theorem toList_intercalate_cons (s m : String) (l : List String) :
    (s.intercalate (m :: l)).toList = m.toList ++ l.flatMap fun x => (s ++ x).toList := by
  induction l generalizing m with
  | nil => simp
  | cons x l ih => simp [String.intercalate_cons_cons, ih]

theorem readMap_filesJson {files : SortedMap FileEntry} (hf : ∀ p ∈ files.entries, p.2.WellFormed)
    {ws : List Char} (hws : ∀ c ∈ ws, isSpace c = true) (r : List Char) :
    readMap readEntry (ws ++ ((filesJson files).toList ++ r)) = .ok (files.entries, r) := by
  obtain ⟨es⟩ := files
  unfold filesJson
  cases es with
  | nil =>
    refine readMap_of_entries ((skipSpace_spaces hws _).trans (skipSpace_cons rfl _))
      (fun fuel hfuel => ?_) (endObject_brace r)
    obtain ⟨f, rfl⟩ : ∃ f, fuel = f + 1 := ⟨fuel - 1, by simp at hfuel; omega⟩
    exact readMap_entries_end (nextKey_brace true r)
  | cons m l =>
    have htext : ("\x7b\n" ++ ",\n".intercalate ((m :: l).map fileMemberJson) ++ "\n  \x7d").toList ++ r =
        '{' :: '\n' :: ((fileMemberJson m).toList ++
          ((l.flatMap fun p => (",\n" ++ fileMemberJson p).toList) ++
            (('\n' :: List.replicate 2 ' ') ++ '}' :: r))) := by
      rw [String.toList_append, String.toList_append, List.map_cons, toList_intercalate_cons]
      simp [List.flatMap_map]
    simp only [SortedMap.isEmpty, List.isEmpty_cons, Bool.false_eq_true, if_false]
    rw [htext, fileMemberJson_toList]
    refine readMap_of_entries ((skipSpace_spaces hws _).trans (skipSpace_cons rfl _))
      (fun fuel hfuel => ?_) (endObject_brace r)
    obtain ⟨f, rfl⟩ : ∃ f, fuel = f + 1 := ⟨fuel - 1, by simp at hfuel; omega⟩
    rw [readMap_entries_item (nextKey_first (indent_isSpace 4) m.1 _)
      (readEntry_toJson (hf m List.mem_cons_self) blank_isSpace 2 _)]
    rw [readMap_entries_members (fun q hq => hf q (List.mem_cons_of_mem _ hq)) _ _ _
      (by simp at hfuel ⊢; omega)]
    simp

namespace SortedMap

variable {α : Type}

theorem insertList_of_lt {k : String} {v : α} {es : List (String × α)}
    (h : ∀ k' ∈ es.map (·.1), k' < k) : insertList k v es = es ++ [(k, v)] := by
  induction es with
  | nil => rfl
  | cons e es ih =>
    obtain ⟨k₀, v₀⟩ := e
    have hlt : k₀ < k := h k₀ List.mem_cons_self
    simp only [insertList, if_neg (lt_asymm hlt), if_neg (ne_of_gt hlt), List.cons_append]
    rw [ih (fun k' hk' => h k' (List.mem_cons_of_mem _ hk'))]

theorem foldl_insert_of_sorted (acc l : List (String × α))
    (hs : ((acc ++ l).map (·.1)).Pairwise (· < ·)) :
    l.foldl (fun m (k, v) => m.insert k v) (⟨acc⟩ : SortedMap α) = ⟨acc ++ l⟩ := by
  induction l generalizing acc with
  | nil => simp
  | cons p l ih =>
    obtain ⟨k, v⟩ := p
    have hlt : ∀ k' ∈ acc.map (·.1), k' < k := by
      simp only [List.map_append, List.map_cons, List.pairwise_append, List.pairwise_cons] at hs
      exact fun k' hk' => hs.2.2 k' hk' k List.mem_cons_self
    have hstep : (⟨acc⟩ : SortedMap α).insert k v = ⟨acc ++ [(k, v)]⟩ := by
      simp only [insert, insertList_of_lt hlt]
    dsimp only [List.foldl_cons]
    rw [hstep, ih _ (by simpa using hs)]
    simp

theorem ofList_entries {m : SortedMap α} (hs : m.keys.Pairwise (· < ·)) : ofList m.entries = m := by
  obtain ⟨es⟩ := m
  exact foldl_insert_of_sorted [] es hs

end SortedMap

/-- An index its text stores exactly: its time and every entry well-formed, its paths in
increasing order. -/
def FileIndex.WellFormed (idx : FileIndex) : Prop :=
  idx.syncedAt.WellFormed ∧ idx.files.keys.Pairwise (· < ·) ∧
    ∀ p ∈ idx.files.entries, p.2.WellFormed

theorem FileIndex.toJson_toList (idx : FileIndex) :
    idx.toJson.toList = '{' :: (('\n' :: List.replicate 2 ' ') ++
      ((jsonString "synced_at").toList ++ ':' :: ([' '] ++
      ((jsonString (idx.syncedAt.rfc3339 true)).toList ++ ',' :: (('\n' :: List.replicate 2 ' ') ++
      ((jsonString "files").toList ++ ':' :: ([' '] ++
      ((filesJson idx.files).toList ++ (['\n'] ++ ['}']))))))))) := by
  have h1 : "\x7b\n  \"synced_at\": ".toList =
      '{' :: (('\n' :: List.replicate 2 ' ') ++ ((jsonString "synced_at").toList ++ [':', ' '])) := by
    decide
  have h2 : ",\n  \"files\": ".toList =
      ',' :: (('\n' :: List.replicate 2 ' ') ++ ((jsonString "files").toList ++ [':', ' '])) := by
    decide
  unfold FileIndex.toJson
  simp only [String.toList_append, h1, h2, List.append_assoc, List.cons_append]
  simp

theorem readIndex_toJson {idx : FileIndex} (h : idx.WellFormed) :
    readRecord "FileIndex" indexFields {} IndexDraft.finish idx.toJson.toList = .ok (idx, []) := by
  obtain ⟨hsynced, hsorted, hfiles⟩ := h
  rw [FileIndex.toJson_toList]
  refine readRecord_of_entries (skipSpace_cons rfl _) (fun w fuel hfuel => ?_)
    (by simp [IndexDraft.finish, SortedMap.ofList_entries hsorted] :
      IndexDraft.finish ⟨some idx.syncedAt, some (SortedMap.ofList idx.files.entries)⟩ = .ok idx)
    (endObject_brace [])
  obtain ⟨f, rfl⟩ : ∃ f, fuel = f + 2 + 1 := ⟨fuel - 3, by simp at hfuel; omega⟩
  rw [readRecord_entries_field (nextKey_first (indent_isSpace _) "synced_at" _) rfl rfl
    (by simp only [readMoment_rfc3339 hsynced blank_isSpace]; rfl)]
  rw [readRecord_entries_field (nextKey_next (indent_isSpace _) "files" _) rfl rfl
    (by simp only [readMap_filesJson hfiles blank_isSpace]; rfl)]
  exact readRecord_entries_end (nextKey_close (indent_isSpace 0) false [])

theorem FileIndex.ofJson_toJson {idx : FileIndex} (h : idx.WellFormed) :
    FileIndex.ofJson idx.toJson = .ok idx := by
  simp [FileIndex.ofJson, readDocument, readIndex_toJson h, skipSpace]

namespace SortedMap

variable {α : Type}

theorem sorted_ofList (l : List (String × α)) : (ofList l).keys.Pairwise (· < ·) := by
  have step : ∀ (m : SortedMap α), m.keys.Pairwise (· < ·) →
      (l.foldl (fun m (k, v) => m.insert k v) m).keys.Pairwise (· < ·) := by
    induction l with
    | nil => exact fun m hm => hm
    | cons p l ih =>
      intro m hm
      exact ih _ (sorted_insert p.1 p.2 hm)
  exact step empty List.Pairwise.nil

end SortedMap

theorem Json.readDocument_eq_ok {α : Type} {read : List Char → Except ReadError (α × List Char)}
    {input : List Char} {v : α} (h : readDocument read input = .ok v) :
    ∃ rest, read input = .ok (v, rest) := by
  unfold readDocument at h
  split at h
  · cases h
  · next v' rest hread =>
    split at h
    · cases h
      exact ⟨rest, hread⟩
    · cases h

theorem FileIndex.ofJson_eq_ok {text : String} {idx : FileIndex}
    (h : FileIndex.ofJson text = .ok idx) :
    ∃ rest, readRecord "FileIndex" indexFields {} IndexDraft.finish text.toList = .ok (idx, rest) := by
  unfold FileIndex.ofJson at h
  dsimp only at h
  split at h
  · cases h
    exact readDocument_eq_ok ‹_›
  · cases h

/-- The files of an index being read, once there, have their paths in increasing order. -/
def IndexDraft.FilesSorted (st : IndexDraft) : Prop :=
  ∀ m, st.files = some m → m.keys.Pairwise (· < ·)

theorem FileIndex.ofJson_sorted {text : String} {idx : FileIndex}
    (h : FileIndex.ofJson text = .ok idx) : idx.paths.Pairwise (· < ·) := by
  obtain ⟨rest, hread⟩ := FileIndex.ofJson_eq_ok h
  have hfields : ∀ f ∈ indexFields, ∀ st cs st' rest, st.FilesSorted →
      f.read st cs = .ok (st', rest) → st'.FilesSorted := by
    intro f hf st cs st' rest hst hr
    simp only [indexFields, List.mem_cons, List.not_mem_nil, or_false] at hf
    rcases hf with rfl | rfl
    · obtain ⟨_, -, he⟩ := Except.map_eq_ok hr
      cases he
      exact hst
    · obtain ⟨_, -, he⟩ := Except.map_eq_ok hr
      cases he
      intro m hm
      cases hm
      exact SortedMap.sorted_ofList _
  obtain ⟨st, hst, hfin⟩ := readRecord_inv IndexDraft.FilesSorted (fun m hm => by cases hm)
    hfields hread
  unfold IndexDraft.finish at hfin
  split at hfin
  · cases hfin
    exact hst _ ‹_›
  · cases hfin
  · cases hfin

theorem FileIndex.load_sorted {ws : Workspace} {root : Path} {now : Time.Instant}
    {idx : FileIndex} (h : FileIndex.load ws root now = .ok idx) : idx.paths.Pairwise (· < ·) := by
  unfold FileIndex.load at h
  dsimp only at h
  split at h
  · cases h
    simp [FileIndex.empty, FileIndex.paths, SortedMap.keys, SortedMap.empty]
  · split at h
    · cases h
    · split at h
      · cases h
        exact FileIndex.ofJson_sorted ‹_›
      · cases h

end ComponentSync
