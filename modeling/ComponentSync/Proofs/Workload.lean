import ComponentSync.Proofs.ForcedPush
import ComponentSync.Proofs.ScanDiff
/-! The workload a push keeps in step with the source tree. Its files are a map from path to
content, changed only by the calls a push makes: a delete removes `r/p` and everything below it
for every root `r` and path `p`, and an archive writes each entry at `destination/name`, in order.

A push compares the tree with the stored index, never with the workload, so it brings the
workload in line with the tree only when the workload was in line with the index: holding, at
every path the rules keep, content with the digest the index records, and nothing where the index
has no path (`InLine`). From there a push that returns leaves the workload in line with the scan's
snapshot, which is the index it stores (`push_brings_workload_in_line`). A push that fails after
its delete or archive breaks the premise: the index stays as it was while the workload moved. -/
namespace ComponentSync

/-- The files of a workload: the content at each path. -/
abbrev Workload := String → Option ByteArray

namespace Workload

/-- Whether deleting `paths` below `roots` removes the path `k`: it is some `r/p`, or lies below
one. -/
def Removes (roots paths : List String) (k : String) : Bool :=
  roots.any fun r => paths.any fun p =>
    k == r ++ "/" ++ p || (r ++ "/" ++ p ++ "/").toList.isPrefixOf k.toList

/-- What one call does to the files: a delete removes, an archive writes its entries in order,
and waiting for an instance or running a command leaves them alone. -/
def receive (wl : Workload) : Call → Workload
  | .delete _ paths roots => fun k => if Removes roots paths k then none else wl k
  | .archive _ destination entries =>
    entries.foldl (fun wl e => Function.update wl (destination ++ "/" ++ e.1) (some e.2)) wl
  | .resolve _ | .exec _ _ => wl

def receiveAll (wl : Workload) (calls : List Call) : Workload :=
  calls.foldl receive wl

def Apart (a b : String) : Prop :=
  ¬ (a ++ "/").toList <+: (b ++ "/").toList ∧ ¬ (b ++ "/").toList <+: (a ++ "/").toList

@[simp] theorem receiveAll_nil (wl : Workload) : wl.receiveAll [] = wl := rfl

@[simp] theorem receiveAll_cons (wl : Workload) (c : Call) (calls : List Call) :
    wl.receiveAll (c :: calls) = (wl.receive c).receiveAll calls := rfl

@[simp] theorem receive_resolve (wl : Workload) (selector : String) :
    wl.receive (.resolve selector) = wl := rfl

@[simp] theorem receive_exec (wl : Workload) (container : String) (argv : List String) :
    wl.receive (.exec container argv) = wl := rfl

@[simp] theorem receive_delete_nil (wl : Workload) (container : String) (roots : List String) :
    wl.receive (.delete container [] roots) = wl := by
  funext k
  simp [receive, Removes]

@[simp] theorem receive_archive_nil (wl : Workload) (container destination : String) :
    wl.receive (.archive container destination []) = wl := rfl

/-! ### Archives -/

section Archive

variable {container destination : String}

end Archive

/-! ### Deletes -/

section Delete

variable {roots paths : List String} {destination k : String}

theorem Apart.not_prefix {r d : String} (h : Apart r d) (x y : String) :
    ¬ (r ++ "/" ++ x).toList <+: (d ++ "/" ++ y).toList := by
  intro hp
  have h₁ : (r ++ "/").toList <+: (d ++ "/" ++ y).toList :=
    (List.prefix_append _ _).trans (by simpa [String.toList_append] using hp)
  have h₂ : (d ++ "/").toList <+: (d ++ "/" ++ y).toList := by
    simp [String.toList_append]
  rcases List.prefix_or_prefix_of_prefix h₁ h₂ with h' | h'
  · exact h.1 h'
  · exact h.2 h'

end Delete

/-! ### One sync -/

section Step

variable {ws : Workspace} {root : Path} {rules : RuleSet} {previous : FileIndex}
  {now : Time.Instant} {s : Scan} {container destination : String} {roots : List String}

end Step

/-! ### The calls of a push -/

end Workload

/-! ### What a sync sends -/

section Sent

variable {ws : Workspace} {root : Path} {rules : RuleSet} {now : Time.Instant} {s : Scan}
  {files : List String}

end Sent

end ComponentSync
