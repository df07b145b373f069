import ComponentSync.Proofs.PushRun
import Mathlib.Data.List.TakeWhile
/-! What a command prints, as a push shows and captures it. The scanner keeps one invariant
from chunk to chunk: the bytes received so far are the lines it has shown, each followed by a
newline, and then the pending bytes, which hold no newline (`CutAt`). So what it shows after a
chunk is every line completed so far, and what it shows in the end depends on the bytes alone,
not on where the chunks were cut: they are the lines of the bytes (`IsLinesOf`), the pieces
between newlines less the empty piece after a final newline. -/
namespace ComponentSync

def joinLines (ls : List (List UInt8)) : List UInt8 :=
  ls.flatMap (· ++ [10])

@[simp] theorem joinLines_nil : joinLines [] = [] := rfl

@[simp] theorem joinLines_cons (l : List UInt8) (ls : List (List UInt8)) :
    joinLines (l :: ls) = l ++ 10 :: joinLines ls := by
  simp [joinLines]

@[simp] theorem joinLines_append (ls ls' : List (List UInt8)) :
    joinLines (ls ++ ls') = joinLines ls ++ joinLines ls' := by
  simp [joinLines]

/-- Bytes cut into complete lines and what follows the last newline; no piece holds a
newline. -/
def CutAt (bytes : List UInt8) (complete : List (List UInt8)) (rest : List UInt8) : Prop :=
  bytes = joinLines complete ++ rest ∧ (∀ l ∈ complete, 10 ∉ l) ∧ 10 ∉ rest

theorem joinLines_append_eq_intercalate (ls : List (List UInt8)) (r : List UInt8) :
    joinLines ls ++ r = [10].intercalate (ls ++ [r]) := by
  induction ls with
  | nil => simp
  | cons l ls ih =>
    cases ls with
    | nil => simp
    | cons l' ls => simp_all [List.intercalate_cons_cons]

theorem splitNewlines_of_cutAt {bytes : List UInt8} {complete : List (List UInt8)}
    {rest : List UInt8} (h : CutAt bytes complete rest) :
    splitNewlines bytes = complete ++ [rest] := by
  obtain ⟨rfl, hls, hr⟩ := h
  rw [splitNewlines, joinLines_append_eq_intercalate]
  refine List.splitOn_intercalate 10 (fun l hl => ?_) (by simp)
  rcases List.mem_append.mp hl with hl | hl
  · exact hls l hl
  · rw [List.mem_singleton.mp hl]
    exact hr

theorem CutAt.unique {bytes : List UInt8} {ls ls' : List (List UInt8)} {r r' : List UInt8}
    (h : CutAt bytes ls r) (h' : CutAt bytes ls' r') : ls = ls' ∧ r = r' := by
  have := (splitNewlines_of_cutAt h).symm.trans (splitNewlines_of_cutAt h')
  simpa using List.append_inj' this rfl

theorem cutAt_append {bytes more : List UInt8} {ls ls' : List (List UInt8)} {r r' : List UInt8}
    (h : CutAt bytes ls r) (h' : CutAt (r ++ more) ls' r') : CutAt (bytes ++ more) (ls ++ ls') r' := by
  obtain ⟨rfl, hls, -⟩ := h
  obtain ⟨hmore, hls', hr'⟩ := h'
  refine ⟨?_, fun l hl => ?_, hr'⟩
  · rw [List.append_assoc, hmore, joinLines_append, List.append_assoc]
  · rcases List.mem_append.mp hl with hl | hl
    · exact hls l hl
    · exact hls' l hl

theorem drainLines_cutAt (pending : List UInt8) :
    CutAt pending (drainLines pending).1 (drainLines pending).2 := by
  fun_induction drainLines pending with
  | case1 pending hnone =>
    refine ⟨rfl, by simp, fun hmem => ?_⟩
    have := List.dropWhile_eq_nil_iff.mp hnone 10 hmem
    simp at this
  | case2 pending x rest hcut drained ih =>
    show CutAt pending (pending.takeWhile (· != 10) :: (drainLines rest).1) (drainLines rest).2
    obtain ⟨hrest, hls, hr⟩ := ih
    have hx : x = 10 := by
      have := List.head_dropWhile_not (· != 10) (l := pending) (by simp [hcut])
      simpa [hcut] using this
    refine ⟨?_, fun l hl => ?_, hr⟩
    · calc pending = pending.takeWhile (· != 10) ++ pending.dropWhile (· != 10) :=
            List.takeWhile_append_dropWhile.symm
        _ = _ := by
          rw [hcut, hx]
          simp only [joinLines_cons, List.append_assoc, List.cons_append]
          rw [← hrest]
    · rcases List.mem_cons.mp hl with rfl | hl
      · intro hmem
        have := List.mem_takeWhile_imp hmem
        simp at this
      · exact hls l hl

/-! ### The scanner -/

/-- The scanner has shown the lines completed by `bytes` and holds the rest. -/
def LineScan.Holds (s : LineScan) (bytes : List UInt8) : Prop :=
  ∃ complete, CutAt bytes complete s.pending ∧ s.shown = complete.map lineText

theorem LineScan.holds_start : LineScan.start.Holds [] :=
  ⟨[], by simp [CutAt, LineScan.start], rfl⟩

/-- A chunk keeps the invariant: after it, the scanner has shown every line completed by the
bytes received so far. -/
theorem LineScan.Holds.feed {s : LineScan} {bytes : List UInt8} (h : s.Holds bytes)
    (chunk : ByteArray) : (s.feed chunk).Holds (bytes ++ chunk.toList) := by
  obtain ⟨complete, hcut, hshown⟩ := h
  refine ⟨complete ++ (drainLines (s.pending ++ chunk.toList)).1,
    cutAt_append hcut (drainLines_cutAt _), ?_⟩
  simp [LineScan.feed, hshown]

theorem LineScan.holds_foldl (chunks : List ByteArray) :
    ∀ {s : LineScan} {bytes : List UInt8}, s.Holds bytes →
      (chunks.foldl LineScan.feed s).Holds (bytes ++ chunks.flatMap ByteArray.toList) := by
  induction chunks with
  | nil => intro s bytes h; simpa using h
  | cons chunk chunks ih =>
    intro s bytes h
    simpa [List.append_assoc] using ih (h.feed chunk)

theorem scan_prefix_holds (chunks : List ByteArray) (k : Nat) :
    ((chunks.take k).foldl LineScan.feed LineScan.start).Holds
      ((chunks.take k).flatMap ByteArray.toList) := by
  simpa using LineScan.holds_foldl (chunks.take k) LineScan.holds_start

/-! ### The lines of a byte stream -/

/-- `lines` are the lines of `bytes`: no line holds a newline, and the bytes are the lines each
followed by a newline, except perhaps a last line, not empty, that has none. -/
def IsLinesOf (bytes : List UInt8) (lines : List (List UInt8)) : Prop :=
  (∀ l ∈ lines, 10 ∉ l) ∧
    (bytes = joinLines lines ∨
      ∃ init last, lines = init ++ [last] ∧ last ≠ [] ∧ bytes = joinLines init ++ last)

/-- The lines of bytes cut at their last newline: the complete ones, then the rest if it is not
empty. -/
def closeLines (complete : List (List UInt8)) (rest : List UInt8) : List (List UInt8) :=
  if rest = [] then complete else complete ++ [rest]

theorem isLinesOf_closeLines {bytes : List UInt8} {complete : List (List UInt8)}
    {rest : List UInt8} (h : CutAt bytes complete rest) :
    IsLinesOf bytes (closeLines complete rest) := by
  obtain ⟨rfl, hls, hr⟩ := h
  unfold closeLines
  split
  · next hnil =>
    subst hnil
    exact ⟨hls, .inl (by simp)⟩
  · next hne =>
    refine ⟨fun l hl => ?_, .inr ⟨complete, rest, rfl, hne, rfl⟩⟩
    rcases List.mem_append.mp hl with hl | hl
    · exact hls l hl
    · rw [List.mem_singleton.mp hl]
      exact hr

theorem cutAt_of_isLinesOf {bytes : List UInt8} {lines : List (List UInt8)}
    (h : IsLinesOf bytes lines) : ∃ complete rest, CutAt bytes complete rest ∧
      lines = closeLines complete rest := by
  obtain ⟨hls, hjoin | ⟨init, last, rfl, hne, rfl⟩⟩ := h
  · exact ⟨lines, [], ⟨by simp [hjoin], hls, by simp⟩, by simp [closeLines]⟩
  · refine ⟨init, last, ⟨rfl, fun l hl => hls l (by simp [hl]), hls last (by simp)⟩, ?_⟩
    simp [closeLines, hne]

theorem IsLinesOf.unique {bytes : List UInt8} {lines lines' : List (List UInt8)}
    (h : IsLinesOf bytes lines) (h' : IsLinesOf bytes lines') : lines = lines' := by
  obtain ⟨c, r, hcut, rfl⟩ := cutAt_of_isLinesOf h
  obtain ⟨c', r', hcut', rfl⟩ := cutAt_of_isLinesOf h'
  obtain ⟨rfl, rfl⟩ := hcut.unique hcut'
  rfl

theorem LineScan.Holds.close {s : LineScan} {bytes : List UInt8} (h : s.Holds bytes) :
    ∃ lines, IsLinesOf bytes lines ∧ s.close = lines.map lineText := by
  obtain ⟨complete, hcut, hshown⟩ := h
  refine ⟨closeLines complete s.pending, isLinesOf_closeLines hcut, ?_⟩
  unfold LineScan.close closeLines
  by_cases hp : s.pending = [] <;> simp [hp, hshown]

theorem scanLines_eq_outputLines (chunks : List ByteArray) :
    scanLines chunks = outputLines chunks := by
  obtain ⟨complete, hcut, hshown⟩ := by
    simpa using LineScan.holds_foldl chunks LineScan.holds_start
  have hsplit := splitNewlines_of_cutAt hcut
  unfold scanLines outputLines LineScan.close
  simp only [hsplit, List.getLast?_append, List.getLast?_singleton, Option.some_or, beq_iff_eq,
    Option.some.injEq, hshown]
  by_cases hp : (chunks.foldl LineScan.feed LineScan.start).pending = [] <;> simp [hp]

/-! ### Running a command -/

variable {σ : Type} (t : Target σ) (inst : Instance) (container : String) (argv : List String)

/-- A command run from a world: its chunks are scanned into lines, shown on the console when
output is shown, and captured; a command that fails fails the push with the captured output. -/
theorem exec_trigger (shown : Bool) (w : World σ) :
    let run := (t.exec inst container argv).run w.target
    let lines := scanLines run.1.1
    let captured := String.join (lines.map (· ++ "\n"))
    PushM.exec (trigger t inst container argv shown) w =
      (match run.1.2 with
        | .ok () => .ok captured
        | .error e => .error (.remoteCommand (" ".intercalate argv) captured e),
       { w with target := run.2,
                console := if shown then lines.foldl Console.line w.console else w.console }) := by
  intro run lines captured
  rcases hrun : run with ⟨⟨chunks, ending⟩, target'⟩
  simp only [trigger, PushM.exec_bind, exec_onTarget]
  rw [show (t.exec inst container argv).run w.target = run from rfl, hrun]
  cases shown <;> cases ending <;> simp [lines, captured, hrun, run]

/-- The output a command captures depends on its bytes alone. For every way its output is cut
into chunks, the captured text is the lines of all the bytes (the last one kept when it has no
newline, no empty line after a final newline), each decoded with invalid bytes replaced,
stripped of trailing carriage returns and followed by a newline; the console gets these lines
in order when output is shown; the command's failure fails the push with the command line
joined by spaces and this output. After each chunk, the scanner has shown every line the
chunks so far complete. -/
theorem command_output_is_lines_of_bytes (shown : Bool) (w : World σ) :
    let run := (t.exec inst container argv).run w.target
    let chunks := run.1.1
    let bytes := chunks.flatMap ByteArray.toList
    ∃ lines, IsLinesOf bytes lines ∧ (∀ other, IsLinesOf bytes other → other = lines) ∧
      (let texts := lines.map fun l => Text.dropTrailing '\r' (String.ofList (Text.decodeLossy l))
       let captured := String.join (texts.map (· ++ "\n"))
       PushM.exec (trigger t inst container argv shown) w =
        (match run.1.2 with
          | .ok () => .ok captured
          | .error e => .error (.remoteCommand (" ".intercalate argv) captured e),
         { w with target := run.2,
                  console := if shown then texts.foldl Console.line w.console else w.console })) ∧
      ∀ k, ∃ complete rest, CutAt ((chunks.take k).flatMap ByteArray.toList) complete rest ∧
        ((chunks.take k).foldl LineScan.feed LineScan.start).shown = complete.map lineText := by
  have hexec := exec_trigger t inst container argv shown w
  dsimp only at hexec ⊢
  generalize (t.exec inst container argv).run w.target = run at hexec ⊢
  obtain ⟨⟨chunks, ending⟩, target'⟩ := run
  obtain ⟨lines, hlines, hclose⟩ :=
    (show (chunks.foldl LineScan.feed LineScan.start).Holds (chunks.flatMap ByteArray.toList) by
      simpa using LineScan.holds_foldl chunks LineScan.holds_start).close
  have hscan : scanLines chunks = lines.map lineText := hclose
  refine ⟨lines, hlines, fun other h => h.unique hlines, ?_, fun k => ?_⟩
  · rw [hexec, hscan]
    simp only [List.map_map, Function.comp_def]
    rfl
  · obtain ⟨complete, hcut, hshown⟩ := scan_prefix_holds chunks k
    exact ⟨complete, _, hcut, hshown⟩

end ComponentSync
