import ComponentSync.Proofs.IndexText
import ComponentSync.Proofs.IndexCommit
import ComponentSync.Proofs.ScanDiff
/-! The index through its file. Whatever the index reader accepts is an index its text stores
exactly: a number read as an unsigned 64-bit integer fits in 64 bits, a moment read from RFC 3339
text, at any offset, has a fraction below a second or is a leap second that ends a minute, and
the files object keeps only entries so read (`FileIndex.ofJson_wellFormed`). Together with the
reading of the written text (`FileIndex.ofJson_toJson`) and with where a save leaves its bytes
(`save_index`), an index that is saved loads back as itself. -/

namespace ComponentSync.Json

/-! ### Numbers -/

/-- A number as read fits its kind: an unsigned one is at most the largest 64-bit number. -/
def Number.Fits : Number → Prop
  | .unsigned n => n ≤ u64Max
  | _ => True

/-- A reading step whose number, when it gives one, fits its kind. -/
def ReadsFitting (read : Except ReadError (Number × List Char)) : Prop :=
  ∀ v rest, read = .ok (v, rest) → v.Fits

theorem readsFitting_error (e : ReadError) : ReadsFitting (.error e) := by
  intro v rest h
  cases h

theorem readsFitting_float (f : Float) (rest : List Char) : ReadsFitting (.ok (.float f, rest)) := by
  intro v rest h
  cases h
  trivial

theorem fromParts_fits (positive : Bool) (sig : Nat) (exp : Int) (rest : List Char) :
    ReadsFitting (fromParts positive sig exp rest) := by
  unfold fromParts
  split
  · exact readsFitting_float _ _
  · exact readsFitting_error _

section Fits

variable (positive : Bool) (sig : Nat)

theorem readExponent_more_fits (positiveExp : Bool)
    {fin : Nat → List Char → Except ReadError (Number × List Char)}
    (hfin : ∀ e r, ReadsFitting (fin e r)) (exp : Nat) (cs : List Char) :
    ReadsFitting (readExponent.more positive sig positiveExp fin exp cs) := by
  fun_induction readExponent.more positive sig positiveExp fin exp cs with
  | case1 => exact readsFitting_error _
  | case2 => exact readsFitting_float _ _
  | case3 _ _ _ _ _ _ ih => exact ih
  | case4 => exact hfin _ _
  | case5 => exact hfin _ _

theorem readExponent_fits (start : Int) (cs : List Char) :
    ReadsFitting (readExponent positive sig start cs) := by
  unfold readExponent
  split
  next positiveExp digits _ =>
    cases digits with
    | nil => exact readsFitting_error _
    | cons c rest =>
      dsimp only
      cases digitOf c with
      | none => exact readsFitting_error _
      | some d => exact readExponent_more_fits positive sig _ (fun _ _ => fromParts_fits _ _ _ _) _ _

theorem readFraction_finish_fits (start : Int) (s : Nat) (after : Int) (rest : List Char) :
    ReadsFitting (readFraction.finish positive start s after rest) := by
  unfold readFraction.finish
  split
  · split
    · exact readsFitting_error _
    · exact readsFitting_error _
  · split
    · exact readExponent_fits _ _ _ _
    · exact readExponent_fits _ _ _ _
    · exact fromParts_fits _ _ _ _

theorem readFraction_fits (start : Int) (cs : List Char) :
    ReadsFitting (readFraction positive sig start cs) := by
  unfold readFraction
  suffices h : ∀ s after cs, ReadsFitting (readFraction.digits positive start s after cs) from
    h _ _ _
  intro s after cs
  fun_induction readFraction.digits positive start s after cs with
  | case1 | case2 | case3 =>
    dsimp only
    split
    · exact readExponent_fits _ _ _ _
    · exact readExponent_fits _ _ _ _
    · exact fromParts_fits _ _ _ _
  | case4 _ _ _ _ _ _ _ ih => exact ih
  | case5 => exact readFraction_finish_fits _ _ _ _ _
  | case6 => exact readFraction_finish_fits _ _ _ _ _

theorem readLong_fits (cs : List Char) : ReadsFitting (readLong positive sig cs) := by
  unfold readLong
  suffices h : ∀ exp cs, ReadsFitting (readLong.go positive sig exp cs) from h _ _
  intro exp cs
  fun_induction readLong.go positive sig exp cs with
  | case1 _ _ _ _ _ ih => exact ih
  | case2 => exact readFraction_fits _ _ _ _
  | case3 | case4 => exact readExponent_fits _ _ _ _
  | case5 | case6 => exact fromParts_fits _ _ _ _

theorem readTail_fits (hsig : sig ≤ u64Max) (rest : List Char) :
    ReadsFitting (readTail positive sig rest) := by
  unfold readTail
  split
  · exact readFraction_fits _ _ _ _
  · exact readExponent_fits _ _ _ _
  · exact readExponent_fits _ _ _ _
  · intro v r h
    split at h
    · cases h
      exact hsig
    · split at h <;> cases h <;> trivial

theorem digitOf_lt {c : Char} {d : Nat} (h : digitOf c = some d) : d < 10 := by
  unfold digitOf at h
  split at h
  · next hc =>
    cases h
    have : c.toNat ≤ '9'.toNat := hc.2
    simp at this ⊢
    omega
  · cases h

theorem le_of_not_overflows {a d max : Nat} (h : ¬overflows a d max = true) (hd : d < 10) :
    a * 10 + d ≤ max := by
  simp [overflows] at h
  omega

theorem readNumber_fits (cs : List Char) : ReadsFitting (readNumber positive cs) := by
  have hint : ∀ sig cs, sig ≤ u64Max → ReadsFitting (readNumber.integral positive sig cs) := by
    intro sig cs
    fun_induction readNumber.integral positive sig cs with
    | case1 => exact fun _ => readLong_fits _ _ _
    | case2 sig c rest d hd hover ih =>
      exact fun _ => ih (le_of_not_overflows hover (digitOf_lt hd))
    | case3 | case4 => exact fun hsig => readTail_fits _ _ hsig _
  unfold readNumber
  split
  · exact readsFitting_error _
  · split
    · split
      · exact readsFitting_error _
      · exact readTail_fits _ _ (by simp [u64Max]) _
    · exact readTail_fits _ _ (by simp [u64Max]) _
  · split
    · exact readsFitting_error _
    · next d hd => exact hint _ _ (by have := digitOf_lt hd; simp only [u64Max]; omega)

end Fits

theorem readU64_le {cs rest : List Char} {n : Nat} (h : readU64 cs = .ok (n, rest)) :
    n ≤ u64Max := by
  unfold readU64 at h
  dsimp only at h
  split at h
  · cases h
  · split at h <;> cases h
    exact readNumber_fits _ _ _ _ ‹_›
  · split at h
    · split at h <;> cases h
      exact readNumber_fits _ _ _ _ ‹_›
    · cases h

end ComponentSync.Json

namespace ComponentSync.Time

/-! ### Moments -/

theorem digitValue_getD_lt (c : Char) : (digitValue c).getD 0 < 10 := by
  unfold digitValue
  split
  · next hc =>
    have : c.toNat ≤ '9'.toNat := hc.2
    simp at this ⊢
    omega
  · simp

theorem foldl_digitValue_lt (ds : List Char) (a : Nat) :
    ds.foldl (fun n c => n * 10 + (digitValue c).getD 0) a < (a + 1) * 10 ^ ds.length := by
  induction ds generalizing a with
  | nil => simp
  | cons c ds ih =>
    have hc := digitValue_getD_lt c
    calc (c :: ds).foldl (fun n c => n * 10 + (digitValue c).getD 0) a
        < (a * 10 + (digitValue c).getD 0 + 1) * 10 ^ ds.length := ih _
      _ ≤ (a + 1) * 10 * 10 ^ ds.length := Nat.mul_le_mul_right _ (by omega)
      _ = (a + 1) * 10 ^ (c :: ds).length := by
        rw [List.length_cons, Nat.pow_succ, Nat.mul_assoc, Nat.mul_comm 10]

/-- `readDigits` reads a prefix of at most `max` characters, and a number below ten to the
length of that prefix. -/
theorem readDigits_eq_ok {max n : Nat} {cs rest : List Char}
    (h : readDigits max cs = .ok (n, rest)) :
    ∃ k, k ≤ max ∧ k ≤ cs.length ∧ n < 10 ^ k ∧ rest = cs.drop k := by
  unfold readDigits at h
  split at h
  · cases h
  · split at h
    · cases h
    · dsimp only at h
      split at h
      · cases h
      · cases h
        refine ⟨_, List.length_take_le _ _, (List.length_take_le' _ _).trans
          (List.takeWhile_prefix _).length_le, ?_, rfl⟩
        simpa only [Nat.zero_add, Nat.one_mul] using foldl_digitValue_lt _ 0

theorem fractionField_lt {cs rest : List Char} {n : Nat} (h : fractionField cs = .ok (n, rest)) :
    n < 10 ^ 9 := by
  unfold fractionField at h
  obtain ⟨⟨m, r⟩, hread, h⟩ := Except.bind_eq_ok h
  obtain ⟨k, hk, hlen, hm, rfl⟩ := readDigits_eq_ok hread
  cases h
  have hused : cs.length - (cs.drop k).length = k := by simp; omega
  calc m * Nat.pow 10 (9 - (cs.length - (cs.drop k).length))
      < 10 ^ k * 10 ^ (9 - k) := by
        rw [hused]
        exact Nat.mul_lt_mul_of_pos_right hm (Nat.pow_pos (by decide))
    _ = 10 ^ 9 := by rw [← Nat.pow_add]; congr 1; omega

theorem optionalFraction_lt {cs rest : List Char} {n : Nat}
    (h : optionalFraction cs = .ok (n, rest)) : n < 10 ^ 9 := by
  unfold optionalFraction at h
  split at h
  · exact fractionField_lt h
  · cases h
    decide

theorem offsetField_mod {cs rest : List Char} {off : Int} (h : offsetField cs = .ok (off, rest)) :
    off % 60 = 0 := by
  unfold offsetField at h
  split at h
  · cases h
    rfl
  · cases h
    rfl
  · obtain ⟨⟨negative, cs⟩, -, h⟩ := Except.bind_eq_ok h
    obtain ⟨hours, -, h⟩ := Except.bind_eq_ok h
    obtain ⟨minutes, -, h⟩ := Except.bind_eq_ok h
    cases h
    split <;> omega

theorem zoneField_mod {cs rest : List Char} {off : Int} (h : zoneField cs = .ok (off, rest)) :
    off % 60 = 0 := by
  unfold zoneField at h
  split at h
  · cases h
    rfl
  · exact offsetField_mod h

/-- The moment of a date and time whose fraction is below a second, at an offset of whole
minutes, is well-formed: second 60 becomes a leap second at the end of a minute. -/
theorem momentOf_wellFormed {year : Int} {month day hour minute second nanos : Nat} {offset : Int}
    {t : Instant} (hnanos : nanos < 10 ^ 9) (hoff : offset % 60 = 0)
    (h : momentOf year month day hour minute second nanos offset = .ok t) : t.WellFormed := by
  unfold momentOf at h
  split at h
  · cases h
  split at h
  · cases h
  by_cases h60 : second = 60
  · simp only [h60, if_true] at h
    split at h
    · next hin =>
      cases h
      refine ⟨.inr ⟨?_, ?_⟩, hin⟩
      · simp only [Instant.addSeconds, Instant.ofCivil]
        omega
      · simp only [Instant.addSeconds, Instant.ofCivil]
        omega
    · cases h
  · simp only [h60, if_false] at h
    split at h
    · next hin =>
      cases h
      refine ⟨.inl ?_, hin⟩
      simp only [Instant.addSeconds, Instant.ofCivil]
      omega
    · cases h

theorem Instant.parseRfc3339_wellFormed {s : String} {t : Instant}
    (h : Instant.parseRfc3339 s = .ok t) : t.WellFormed := by
  unfold Instant.parseRfc3339 at h
  obtain ⟨⟨year, cs⟩, -, h⟩ := Except.bind_eq_ok h
  obtain ⟨cs, -, h⟩ := Except.bind_eq_ok h
  obtain ⟨⟨month, cs⟩, -, h⟩ := Except.bind_eq_ok h
  obtain ⟨cs, -, h⟩ := Except.bind_eq_ok h
  obtain ⟨⟨day, cs⟩, -, h⟩ := Except.bind_eq_ok h
  obtain ⟨cs, -, h⟩ := Except.bind_eq_ok h
  obtain ⟨⟨hour, cs⟩, -, h⟩ := Except.bind_eq_ok h
  obtain ⟨cs, -, h⟩ := Except.bind_eq_ok h
  obtain ⟨⟨minute, cs⟩, -, h⟩ := Except.bind_eq_ok h
  obtain ⟨cs, -, h⟩ := Except.bind_eq_ok h
  obtain ⟨⟨second, cs⟩, -, h⟩ := Except.bind_eq_ok h
  obtain ⟨⟨nanos, cs⟩, hnanos, h⟩ := Except.bind_eq_ok h
  obtain ⟨⟨offset, cs⟩, hoff, h⟩ := Except.bind_eq_ok h
  obtain ⟨-, -, h⟩ := Except.bind_eq_ok h
  exact momentOf_wellFormed (optionalFraction_lt hnanos) (zoneField_mod hoff) h

end ComponentSync.Time

namespace ComponentSync

open Json

/-! ### Index texts -/

theorem readMoment_wellFormed {cs rest : List Char} {t : Time.Instant}
    (h : readMoment cs = .ok (t, rest)) : t.WellFormed := by
  unfold readMoment at h
  split at h
  · cases h
  · split at h
    · cases h
      exact Time.Instant.parseRfc3339_wellFormed ‹_›
    · cases h

/-- The fields of an entry read so far are as an index text stores them. -/
def EntryDraft.Fits (st : EntryDraft) : Prop :=
  (∀ n, st.size = some n → n ≤ u64Max) ∧ ∀ t, st.modified = some t → t.WellFormed

theorem readEntry_wellFormed {cs rest : List Char} {e : FileEntry}
    (h : readEntry cs = .ok (e, rest)) : e.WellFormed := by
  have hfields : ∀ f ∈ entryFields, ∀ st cs st' rest, st.Fits →
      f.read st cs = .ok (st', rest) → st'.Fits := by
    intro f hf st cs st' rest hst hr
    simp only [entryFields, List.mem_cons, List.not_mem_nil, or_false] at hf
    rcases hf with rfl | rfl | rfl
    · obtain ⟨_, -, he⟩ := Except.map_eq_ok hr
      cases he
      exact hst
    · obtain ⟨⟨n, r⟩, hn, he⟩ := Except.map_eq_ok hr
      cases he
      exact ⟨fun m hm => by cases hm; exact readU64_le hn, hst.2⟩
    · obtain ⟨⟨t, r⟩, ht, he⟩ := Except.map_eq_ok hr
      cases he
      exact ⟨hst.1, fun t' ht' => by cases ht'; exact readMoment_wellFormed ht⟩
  obtain ⟨st, hst, hfin⟩ := readRecord_inv EntryDraft.Fits
    ⟨fun _ h => (by cases h), fun _ h => (by cases h)⟩ hfields h
  unfold EntryDraft.finish at hfin
  split at hfin
  · cases hfin
    exact ⟨hst.1 _ ‹_›, hst.2 _ ‹_›⟩
  all_goals cases hfin

section Values

variable {α : Type} {readValue : List Char → Except ReadError (α × List Char)} {Q : α → Prop}

theorem readMap_values (hv : ∀ cs v rest, readValue cs = .ok (v, rest) → Q v)
    {cs rest : List Char} {pairs : List (String × α)} (h : readMap readValue cs = .ok (pairs, rest)) :
    ∀ p ∈ pairs, Q p.2 := by
  -- the members are gathered in reverse, each one read by the value reader
  have hentries : ∀ fuel first (acc : List (String × α)) cs pairs rest, (∀ p ∈ acc, Q p.2) →
      readMap.entries readValue fuel first acc cs = .ok (pairs, rest) → ∀ p ∈ pairs, Q p.2 := by
    intro fuel
    induction fuel with
    | zero => intro _ _ _ _ _ _ h; cases h
    | succ fuel ih =>
      intro first acc cs pairs rest hacc h
      unfold readMap.entries at h
      split at h
      · cases h
      · cases h
        simpa using hacc
      · split at h
        · cases h
        · split at h
          · next k _ v r hread =>
            refine ih _ _ _ _ _ (fun p hp => ?_) h
            rcases List.mem_cons.mp hp with rfl | hp
            · exact hv _ _ _ hread
            · exact hacc p hp
          · cases h
  unfold readMap at h
  split at h
  · cases h
  · split at h
    · cases h
    · split at h
      · cases h
        exact hentries _ _ [] _ _ _ (fun _ hp => by cases hp) ‹_›
      · cases h
  · cases h

end Values

namespace SortedMap

variable {α : Type}

theorem mem_foldl_insert {p : String × α} :
    ∀ (l : List (String × α)) (m : SortedMap α),
      p ∈ (l.foldl (fun m (k, v) => m.insert k v) m).entries → p ∈ m.entries ∨ p ∈ l
  | [], _, hm => .inl hm
  | q :: l, m, hm => by
    rcases mem_foldl_insert l _ hm with hm | hl
    · rcases mem_insert hm with rfl | hm
      · exact .inr List.mem_cons_self
      · exact .inl hm
    · exact .inr (List.mem_cons_of_mem _ hl)

theorem mem_ofList {l : List (String × α)} {p : String × α} (h : p ∈ (ofList l).entries) :
    p ∈ l := by
  rcases mem_foldl_insert l empty h with h | h
  · cases h
  · exact h

end SortedMap

/-- The fields of an index read so far are as an index text stores them. -/
def IndexDraft.Fits (st : IndexDraft) : Prop :=
  (∀ t, st.syncedAt = some t → t.WellFormed) ∧
    ∀ m, st.files = some m → ∀ p ∈ m.entries, p.2.WellFormed

theorem FileIndex.ofJson_wellFormed {text : String} {idx : FileIndex}
    (h : FileIndex.ofJson text = .ok idx) : idx.WellFormed := by
  obtain ⟨rest, hread⟩ := FileIndex.ofJson_eq_ok h
  have hfields : ∀ f ∈ indexFields, ∀ st cs st' rest, st.Fits →
      f.read st cs = .ok (st', rest) → st'.Fits := by
    intro f hf st cs st' rest hst hr
    simp only [indexFields, List.mem_cons, List.not_mem_nil, or_false] at hf
    rcases hf with rfl | rfl
    · obtain ⟨⟨t, r⟩, ht, he⟩ := Except.map_eq_ok hr
      cases he
      exact ⟨fun t' ht' => by cases ht'; exact readMoment_wellFormed ht, hst.2⟩
    · obtain ⟨⟨pairs, r⟩, hpairs, he⟩ := Except.map_eq_ok hr
      cases he
      refine ⟨hst.1, fun m hm p hp => ?_⟩
      cases hm
      exact readMap_values (fun _ _ _ => readEntry_wellFormed) hpairs p (SortedMap.mem_ofList hp)
  obtain ⟨st, hst, hfin⟩ := readRecord_inv IndexDraft.Fits
    ⟨fun _ h => (by cases h), fun _ h => (by cases h)⟩ hfields hread
  have hsorted := FileIndex.ofJson_sorted h
  unfold IndexDraft.finish at hfin
  split at hfin
  · cases hfin
    exact ⟨hst.1 _ ‹_›, hsorted, hst.2 _ ‹_›⟩
  all_goals cases hfin

/-! ### The index file -/

section File

open Workspace

variable {ws : Workspace} {root q : Path} {idx : FileIndex} {now now' : Time.Instant}

theorem fromUTF8_toUTF8 (s : String) : String.fromUTF8? s.toUTF8 = some s := by
  simp only [String.fromUTF8?, String.toUTF8_eq_toByteArray, dif_pos s.isValidUTF8]
  rfl

theorem readText_of_readFile {p : Path} {s : String} (h : ws.readFile p = .ok s.toUTF8) :
    ws.exists? p = true ∧ ws.readText p = .ok s := by
  have hstat : ∃ n, ws.stat p = .ok n := by
    unfold readFile at h
    cases hs : ws.stat p with
    | error e => simp [hs, bind, Except.bind] at h
    | ok n => exact ⟨n, rfl⟩
  obtain ⟨n, hn⟩ := hstat
  refine ⟨by simp [exists?, hn], ?_⟩
  unfold Workspace.readText
  rw [h]
  simp only [bind, Except.bind, fromUTF8_toUTF8]
  rfl

/-- A well-formed index that is saved loads back as itself, when neither the index file nor its
temporary file is a link. -/
theorem load_save (hwf : idx.WellFormed) (hshape : ws.TreeShaped) (h : ws.LeadsToDir root q)
    (hT : ∀ t m, ws.lstat (indexTempPath root) ≠ .ok (.symlink t m))
    (hI : ∀ t m, ws.lstat (indexPath root) ≠ .ok (.symlink t m))
    (hsave : (FileIndex.save ws root idx now).2 = .ok ()) :
    FileIndex.load (FileIndex.save ws root idx now).1 root now' = .ok idx := by
  obtain ⟨hexists, htext⟩ := readText_of_readFile (save_index hshape h hT hI hsave)
  simp [FileIndex.load, hexists, htext, FileIndex.ofJson_toJson hwf]

end File

/-- The index file keeps an index exactly. An index whose times lie in the usable years, whose
sizes fit in 64 bits and whose paths increase loads back as itself after it is saved, when
neither the index file nor its temporary file is a link. Every text the index reader accepts,
whatever the offsets of its times, holds such an index, and its text reads back as it, so it
saves and loads again as itself and a second save writes the same bytes. -/
theorem index_file_round_trip :
    (∀ {ws : Workspace} {root q : Path} {idx : FileIndex} {now now' : Time.Instant},
      idx.WellFormed → ws.TreeShaped → ws.LeadsToDir root q →
      (∀ t m, ws.lstat (indexTempPath root) ≠ .ok (.symlink t m)) →
      (∀ t m, ws.lstat (indexPath root) ≠ .ok (.symlink t m)) →
      (FileIndex.save ws root idx now).2 = .ok () →
      FileIndex.load (FileIndex.save ws root idx now).1 root now' = .ok idx) ∧
    (∀ {text : String} {idx : FileIndex}, FileIndex.ofJson text = .ok idx →
      idx.WellFormed ∧ FileIndex.ofJson idx.toJson = .ok idx) :=
  ⟨fun hwf hshape h hT hI hsave => load_save hwf hshape h hT hI hsave,
    fun h => ⟨FileIndex.ofJson_wellFormed h, FileIndex.ofJson_toJson (FileIndex.ofJson_wellFormed h)⟩⟩

/-- The round trip at a one-file index whose file's time is a leap second, saved in an empty
tree. -/
theorem index_file_round_trip_leap_second :
    let idx : FileIndex := ⟨⟨0, 0⟩, ⟨[("a.txt", ⟨"d", 3, ⟨86399, 1000000000⟩⟩)]⟩⟩
    idx.WellFormed ∧ Workspace.empty.TreeShaped ∧ Workspace.empty.LeadsToDir [] [] ∧
      (∀ t m, Workspace.empty.lstat (indexTempPath []) ≠ .ok (.symlink t m)) ∧
      (∀ t m, Workspace.empty.lstat (indexPath []) ≠ .ok (.symlink t m)) ∧
      (FileIndex.save Workspace.empty [] idx ⟨0, 0⟩).2 = .ok () ∧
      FileIndex.load (FileIndex.save Workspace.empty [] idx ⟨0, 0⟩).1 [] ⟨0, 0⟩ = .ok idx ∧
      FileIndex.ofJson idx.toJson = .ok idx := by
  intro idx
  have hwf : idx.WellFormed := ⟨by decide, by decide, by simp [idx]; exact ⟨by decide, by decide⟩⟩
  have hshape : Workspace.empty.TreeShaped := by decide
  have hroot : Workspace.empty.LeadsToDir [] [] := ⟨rfl, rfl⟩
  have hT : ∀ t m, Workspace.empty.lstat (indexTempPath []) ≠ .ok (.symlink t m) := by
    intro t m h
    rw [(rfl : Workspace.empty.lstat (indexTempPath []) = .error .notFound)] at h
    cases h
  have hI : ∀ t m, Workspace.empty.lstat (indexPath []) ≠ .ok (.symlink t m) := by
    intro t m h
    rw [(rfl : Workspace.empty.lstat (indexPath []) = .error .notFound)] at h
    cases h
  have hsave : (FileIndex.save Workspace.empty [] idx ⟨0, 0⟩).2 = .ok () := rfl
  have hread : FileIndex.ofJson idx.toJson = .ok idx := FileIndex.ofJson_toJson hwf
  exact ⟨hwf, hshape, hroot, hT, hI, hsave,
    index_file_round_trip.1 hwf hshape hroot hT hI hsave, (index_file_round_trip.2 hread).2⟩

end ComponentSync
