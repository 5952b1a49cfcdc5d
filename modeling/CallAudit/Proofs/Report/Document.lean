import CallAudit.Proofs.Report.Groups
import CallAudit.Proofs.Report.Total

/-!
# Written documents

In JSON the chains that are written one by one make up one document, the array of their lines, and so
do groups, the object of the arrays of their chains (`written_chains_read_back`).  Between two chains a
writer has begun and is past its first item (`Writer.Streaming`); every further chain then adds a
comma and its own form.
-/

namespace CallAudit

namespace Writer

variable {w w' : Writer} {c : Chain} {cs : List Chain}

/-- A writer of one array that has some of its items. -/
structure Streaming (w : Writer) : Prop where
  json : w.json = true
  ungrouped : w.grouping = .none
  begun : w.hasBegun = true
  notFirst : w.isFirst = false

theorem Streaming.opening_eq (hw : w.Streaming) : w.opening = [] := by
  rw [opening, if_pos hw.begun]

theorem writeNow_ungrouped (hw : w.grouping = .none) : Report.writeNow w c = w.writeChain c := by
  rw [Report.writeNow, hw]
  rfl

/-- Every other chain comes after the ones before it. -/
theorem Streaming.writeChain (hw : w.Streaming) (h : w.writeChain c = (.ok (), w')) :
    w'.Streaming ∧
      w'.sink.written.toList = w.sink.written.toList ++ Stroke.allChars (item true false c) := by
  unfold Writer.writeChain at h
  rw [hw.opening_eq, hw.json, hw.notFirst, List.nil_append] at h
  have hw' := perform_ok h
  refine ⟨?_, ?_⟩
  · rw [hw']
    exact ⟨hw.json, hw.ungrouped, hw.begun, rfl⟩
  · rw [hw', written_afterAll]

theorem Streaming.writeAll (hw : w.Streaming) (h : Report.writeAll cs w = (.ok (), w')) :
    w'.Streaming ∧ w'.sink.written.toList =
      w.sink.written.toList ++ Stroke.allChars (cs.flatMap (item true false)) := by
  induction cs generalizing w with
  | nil =>
    obtain ⟨-, rfl⟩ := Prod.mk.inj h
    exact ⟨hw, (List.append_nil _).symm⟩
  | cons c cs ih =>
    rw [Report.writeAll, writeNow_ungrouped hw.ungrouped] at h
    split at h
    · cases h
    next w₁ hwrite =>
      obtain ⟨hw₁, hwritten⟩ := hw.writeChain hwrite
      obtain ⟨hw', hrest⟩ := ih hw₁ h
      refine ⟨hw', ?_⟩
      rw [hrest, hwritten, List.append_assoc, List.flatMap_cons, Stroke.allChars_append]

theorem Streaming.finish (hw : w.Streaming) (h : w.finish = (.ok (), w')) :
    w'.sink.written.toList = w.sink.written.toList ++ ['\n', ']', '\n'] := by
  have hstream : w.isStream = true := by rw [isStream, hw.json, hw.ungrouped]; rfl
  rw [Writer.finish, closing, if_pos hstream, hw.opening_eq, hw.notFirst] at h
  rw [perform_ok h, written_afterAll]
  rfl

end Writer

end CallAudit
