import ComponentSync.Proofs.ScanSpec
import ComponentSync.Proofs.MomentText
/-! The times a scan meets. A file system holds a modification time only within its range of
seconds, and a time asked for outside it is clamped into it when a node is laid out. When the
range lies within whole eras of the calendar, as ext4's does, every time `lstat` finds is a
well-formed moment, and so is every time a scan records (`scan_meets_only_calendar_times`). A scan
never checks a time's range itself: on a file system that holds any 64-bit second, as tmpfs and
btrfs do, a file dated past the calendar's last year is scanned and its time recorded as it is,
a time with no date (`int64_scan_records_time_past_calendar`). -/
namespace ComponentSync

/-! ### Times within the calendar -/

namespace Time
/-- The year of a day lies in the 400-year era of the day, or is the first year of the next one
(the January and February that end an era). -/
theorem civilFromDays_year_bounds (z : Int) :
    (z + 719468) / 146097 * 400 ≤ (civilFromDays z).1 ∧
      (civilFromDays z).1 ≤ (z + 719468) / 146097 * 400 + 400 := by
  obtain ⟨era, doe, hz, hdoe0, hdoe1, hera⟩ : ∃ era doe : Int,
      z + 719468 = era * 146097 + doe ∧ 0 ≤ doe ∧ doe ≤ 146096 ∧ (z + 719468) / 146097 = era :=
    ⟨(z + 719468) / 146097, (z + 719468) % 146097, by omega, by omega, by omega, rfl⟩
  have hyoe := yearOfEra_bounds doe hdoe0 hdoe1
  have hdoe : z + 719468 - era * 146097 = doe := by omega
  simp only [civilFromDays, hera, hdoe]
  simp only at hyoe
  generalize (doe - doe / 1460 + doe / 36524 - doe / 146096) / 365 = yoe at *
  obtain ⟨hy0, hy1, -⟩ := hyoe
  split <;> omega

/-- The first second of the calendar's era -655, 1 March of the year -262000. -/
def calendarStart : Int := -8330083459200

/-- The first second of the calendar's era 655, 1 March of the year 262000. -/
def calendarEnd : Int := 8205759388800

theorem Instant.inRange_of_bounds {t : Instant} (hlo : calendarStart ≤ t.secs)
    (hhi : t.secs < calendarEnd) : t.inRange = true := by
  have hyear : t.civil.year = (civilFromDays (t.secs / 86400)).1 := rfl
  have hy := civilFromDays_year_bounds (t.secs / 86400)
  simp only [calendarStart, calendarEnd] at hlo hhi
  simp only [Instant.inRange, hyear, minYear, maxYear, Bool.and_eq_true, decide_eq_true_eq]
  omega

end Time

/-- A range of seconds within the eras whose dates the calendar writes. -/
def StampRange.WithinCalendar (r : StampRange) : Prop :=
  Time.calendarStart ≤ r.earliest ∧ r.latest < Time.calendarEnd

instance (r : StampRange) : Decidable r.WithinCalendar := inferInstanceAs (Decidable (_ ∧ _))

theorem StampRange.ext4_withinCalendar : StampRange.ext4.WithinCalendar := by decide

/-- Whatever seconds are asked for, a file system whose range lies within the calendar stores a
well-formed moment. -/
theorem StampRange.store_wellFormed {r : StampRange} (hr : r.WithinCalendar) {t : Time.Instant}
    (h : t.nanos < 1000000000) : (r.store t).WellFormed := by
  have hord := r.ordered
  obtain ⟨hlo, hhi⟩ := hr
  refine ⟨.inl h, Time.Instant.inRange_of_bounds ?_ ?_⟩ <;>
    simp only [StampRange.store] <;> omega

theorem Node.stored_wellFormed {r : StampRange} (hr : r.WithinCalendar) {n : Node}
    (h : n.mtime.nanos < 1000000000) : (n.stored r).mtime.WellFormed := by
  cases n with
  | dir => simp only [Node.stored, Node.mtime]; decide
  | file c t | symlink target t | socket t => exact r.store_wellFormed hr h

/-! ### File systems that hold well-formed times -/

/-- A file system whose every node holds a well-formed moment. -/
def Workspace.TimesWellFormed (ws : Workspace) : Prop :=
  ∀ q ∈ ws.nodes, q.2.mtime.WellFormed

namespace Workspace.TimesWellFormed

variable {ws : Workspace}

theorem empty : Workspace.empty.TimesWellFormed := by
  simp [Workspace.TimesWellFormed, Workspace.empty]

theorem put (h : ws.TimesWellFormed) (p : Path) {n : Node} (hn : n.mtime.WellFormed) :
    (ws.put p n).TimesWellFormed := by
  intro q hq
  rcases List.mem_cons.mp hq with rfl | hq
  · exact hn
  · exact h q (List.mem_of_mem_filter hq)

theorem drop (h : ws.TimesWellFormed) (p : Path) : (ws.drop p).TimesWellFormed :=
  fun q hq => h q (List.mem_of_mem_filter hq)

/-- Laying a node out keeps every time well formed, whatever seconds the node asks for: its
parents are directories, and its own time is clamped into the range. -/
theorem plant (hr : ws.stamps.WithinCalendar) (h : ws.TimesWellFormed) (p : Path) {n : Node}
    (hn : n.mtime.nanos < 1000000000) : (ws.plant p n).TimesWellFormed := by
  unfold Workspace.plant
  refine put (drop (List.foldlRecOn _ _ h fun w hw d _ => ?_) p) p
    (Node.stored_wellFormed ?_ hn)
  · split
    · exact hw
    · split
      · exact hw
      · exact put (drop hw d) d (by decide)
  · refine List.foldlRecOn (motive := fun w : Workspace => w.stamps.WithinCalendar) _ _ hr
      fun w hw d _ => ?_
    split
    · exact hw
    · split <;> exact hw

theorem lstat_wellFormed (h : ws.TimesWellFormed) {p : Path} {n : Node}
    (hl : ws.lstat p = .ok n) : n.mtime.WellFormed := by
  rcases Workspace.lstat_stored hl with rfl | ⟨q, hq⟩
  · decide
  · exact h (q, n) hq

end Workspace.TimesWellFormed

/-! ### What a scan records -/

section Scan

variable {ws : Workspace} {root : Path} {rules : RuleSet} {previous : FileIndex}

theorem fingerprint_modified {full : Path} {k : String} {e : FileEntry}
    (h : fingerprint ws full k previous = .ok (some e)) :
    ∃ n, ws.lstat full = .ok n ∧ e.modified = n.mtime := by
  obtain ⟨n, hl⟩ := fingerprint_found h
  exact ⟨n, hl, ((fingerprint_eq_ok_iff hl).mp h).2.1⟩

theorem snapshot_times_wellFormed (hws : ws.TimesWellFormed) {now : Time.Instant}
    {snap : FileIndex} (h : snapshot ws root rules previous now = .ok snap) :
    ∀ kv ∈ snap.files.entries, kv.2.modified.WellFormed := by
  refine snapshot_inv_along (fun _ => True) trivial (fun _ _ _ _ _ _ _ => trivial)
    (fun idx => ∀ kv ∈ idx.files.entries, kv.2.modified.WellFormed) ?_
    (by simp [FileIndex.empty, SortedMap.empty]) h
  intro acc parts e _ _ _ hfp hacc kv hkv
  rcases SortedMap.mem_insert hkv with rfl | hold
  · obtain ⟨n, hl, hmod⟩ := fingerprint_modified hfp
    rw [hmod]
    exact hws.lstat_wellFormed hl
  · exact hacc kv hold

/-- Every time a scan meets is a moment of the calendar, on a file system whose range of seconds
lies within the calendar. Such a file system keeps its times well formed once a node is laid out
in it, whatever seconds the node asks for; every node `lstat` finds, which is where a scan reads
each file's time, then holds a well-formed moment, and a scan that succeeds records only such
moments. -/
theorem scan_meets_only_calendar_times (hr : ws.stamps.WithinCalendar) (hws : ws.TimesWellFormed)
    (root : Path) (rules : RuleSet) (now : Time.Instant) :
    (∀ p n, n.mtime.nanos < 1000000000 → (ws.plant p n).TimesWellFormed) ∧
      (∀ p n, ws.lstat p = .ok n → n.mtime.WellFormed) ∧
      ∀ s, scan ws root rules now = .ok s →
        ∀ k e, s.snapshot.get? k = some e → e.modified.WellFormed := by
  refine ⟨fun p _ hn => hws.plant hr p hn, fun _ _ hl => hws.lstat_wellFormed hl,
    fun s hs k e he => ?_⟩
  obtain ⟨previous, -, hsnap, -⟩ := scan_against hs
  exact snapshot_times_wellFormed hws hsnap (k, e) (SortedMap.mem_of_get? he)

/-- The statement on ext4, for a file laid out with a time past the calendar's last year. -/
theorem ext4_scan_meets_calendar_times :
    let ws := Workspace.empty.plant ["a.txt"] (.file "a".toUTF8 ⟨9000000000000, 0⟩)
    ws.stamps.WithinCalendar ∧ ws.TimesWellFormed ∧
      (∀ p n, n.mtime.nanos < 1000000000 → (ws.plant p n).TimesWellFormed) ∧
      (∀ p n, ws.lstat p = .ok n → n.mtime.WellFormed) ∧
      ∀ s, scan ws [] RuleSet.builtin ⟨0, 0⟩ = .ok s →
        ∀ k e, s.snapshot.get? k = some e → e.modified.WellFormed := by
  intro ws
  have hr : ws.stamps.WithinCalendar := StampRange.ext4_withinCalendar
  have hws : ws.TimesWellFormed :=
    Workspace.TimesWellFormed.empty.plant StampRange.ext4_withinCalendar ["a.txt"] (by decide)
  exact ⟨hr, hws, scan_meets_only_calendar_times hr hws [] RuleSet.builtin ⟨0, 0⟩⟩

/-- On a file system that holds any 64-bit second, a file dated nine thousand billion seconds
after the epoch, past the calendar's last year, is scanned without an error, and the scan
records that time, which has no date. -/
theorem int64_scan_records_time_past_calendar :
    let ws := (⟨[], .int64⟩ : Workspace).plant ["a.txt"] (.file "a".toUTF8 ⟨9000000000000, 0⟩)
    scan ws [] RuleSet.builtin ⟨0, 0⟩ = .ok ⟨["a.txt"], [],
        ⟨⟨0, 0⟩, ⟨[("a.txt", ⟨Digest.sha256Hex "a".toUTF8, 1, ⟨9000000000000, 0⟩⟩)]⟩⟩⟩ ∧
      (⟨9000000000000, 0⟩ : Time.Instant).inRange = false := by
  intro ws
  have hws : ws = ⟨[(["a.txt"], .file "a".toUTF8 ⟨9000000000000, 0⟩)], .int64⟩ := rfl
  have htop : Path.tooLong [] = false := by decide
  have hkeep : RuleSet.builtin.isIgnored "a.txt" = false :=
    RuleSet.builtin_keeps_name (by decide) (by decide) (by decide)
  have hsize : "a".utf8ByteSize = 1 := by decide
  have hload : FileIndex.load ws [] ⟨0, 0⟩ = .ok (FileIndex.empty ⟨0, 0⟩) := by
    rw [hws]
    rfl
  have hdir : ws.readDir [] = .ok [("a.txt", .file "a".toUTF8 ⟨9000000000000, 0⟩)] := by
    rw [hws]
    simp only [Workspace.readDir, Workspace.resolve_nil, htop]
    simp [bind, Except.bind, pure, Except.pure]
  have hla : ws.lstat ["a.txt"] = .ok (.file "a".toUTF8 ⟨9000000000000, 0⟩) := by
    rw [hws]
    rfl
  have hra : ws.readFile ["a.txt"] = .ok "a".toUTF8 := by rw [hws]; rfl
  have hlen : ws.nodes.length = 1 := by rw [hws]; rfl
  refine ⟨?_, by decide⟩
  simp [scan, hload, scanAgainst, snapshot, walkFrom, hdir, hkeep, fingerprint,
    fingerprint.fresh, hla, hra, hlen, bind, Except.bind, pure, Except.pure,
    Except.map, Node.isDir, Node.size, Node.mtime, FileIndex.insert, FileIndex.get?,
    FileIndex.empty, FileIndex.paths, SortedMap.insert, SortedMap.insertList, SortedMap.get?,
    SortedMap.empty, SortedMap.keys, SortedMap.contains, hsize]

end Scan

end ComponentSync
