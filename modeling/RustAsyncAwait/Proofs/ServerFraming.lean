import RustAsyncAwait.Server
import RustAsyncAwait.Proofs.DataFormat

/-! What `handle_client` decodes. It takes the first `WouldBlock` after a byte
for the end of the message, whatever the header says. -/

namespace RustAsyncAwait.Server
open Library DataLayer

/-- No `WouldBlock` between two bytes of a message. -/
def Unbroken (results : List ReadResult) : Prop :=
  Gaps (fun before after => before = [] ∨ after = []) results

/-- The loop leaves with the bytes up to the first `WouldBlock` behind a byte. -/
theorem read_loop_stops {limit : Nat} {bytes : List UInt8} {results : List ReadResult} {last : ReadResult}
    (buffer : List UInt8) (delivers : Delivers limit bytes results) (more : buffer ++ bytes ≠ [])
    (ends : last = .wouldBlock ∨ last = .ok []) :
    ∃ stopped, read_loop buffer (results ++ [last]) = some stopped ∧ stopped <+: buffer ++ bytes ∧
      (stopped = buffer ++ bytes ↔ Gaps (fun before after => buffer ++ before = [] ∨ after = []) results) := by
  induction results generalizing bytes buffer with
  | nil =>
    have none : bytes = [] := delivers.whole.symm
    subst none
    have filled : 0 < buffer.length := List.length_pos_iff.mpr (by simpa using more)
    refine ⟨buffer, ?_, by simp, by simp [gaps_nil]⟩
    rcases ends with rfl | rfl
    · simp [read_loop, filled]
    · simp [read_loop]
  | cons result results ih =>
    have whole := delivers.whole
    rcases delivers.chunks result (List.mem_cons_self ..) with rfl | ⟨chunk, rfl, filled, small⟩
    · have same : received results = bytes := whole
      rw [gaps_wouldBlock, same]
      by_cases empty : buffer = []
      · subst empty
        obtain ⟨stopped, left, front, all⟩ := ih [] (delivers.rest [_]) (by rw [same]; exact more)
        rw [same] at front all
        exact ⟨stopped, by simpa [read_loop] using left, front, by simpa using all⟩
      · refine ⟨buffer, by simp [read_loop, List.length_pos_iff.mpr empty], List.prefix_append _ _, ?_⟩
        simp only [List.append_nil, empty, false_or, List.self_eq_append_right]
        constructor
        · intro none
          refine ⟨none, fun before after split => .inr ?_⟩
          rw [← same, split, received_append] at none
          exact (List.append_eq_nil_iff.mp (List.append_eq_nil_iff.mp none).2).2
        · exact fun gaps => gaps.1
    · have same : chunk ++ received results = bytes := whole
      obtain ⟨stopped, left, front, all⟩ := ih (buffer ++ chunk) (delivers.rest [_]) (by
        rw [List.append_assoc, same]
        exact more)
      rw [List.append_assoc, same] at front all
      refine ⟨stopped, ?_, front, ?_⟩
      · simpa [read_loop, Nat.ne_of_gt filled] using left
      · rw [all, gaps_cons (by simp)]
        simp only [List.append_assoc, ReadResult.bytes]

/-- `handle_client` decodes a message to itself exactly when no `WouldBlock`
falls between two of its bytes. -/
theorem handle_client_decodes {order : ByteOrder} {data : Data} {results : List ReadResult} {last : ReadResult}
    (fits : data.fits) (delivers : Delivers 1024 (data.serialize order) results)
    (ends : last = .wouldBlock ∨ last = .ok []) :
    handle_client order (results ++ [last]) = some (.ok data) ↔ Unbroken results := by
  have filled : data.serialize order ≠ [] := by
    apply List.ne_nil_of_length_pos
    rw [serialize_length]
    omega
  obtain ⟨stopped, left, front, all⟩ := read_loop_stops [] delivers filled ends
  simp only [List.nil_append] at front all
  unfold handle_client Unbroken
  rw [left, ← all, Option.map_some, Option.some.injEq]
  constructor
  · intro decoded
    have outcome : (Data.deserialize order).perform ⟨stopped, 0⟩ = (.ok data, _) := Prod.ext decoded rfl
    obtain ⟨_, inside, _⟩ := deserialize_ok.mp outcome
    exact front.eq_of_length (Nat.le_antisymm front.length_le inside.length_le)
  · intro whole
    rw [whole, deserialize_ok.mpr ⟨fits, List.prefix_refl _, rfl⟩]

/-- The message arrives in two chunks right behind each other, after a gap. -/
theorem handle_client_decodes_two_chunks :
    handle_client .little ([.wouldBlock, .ok [7, 0, 0, 0, 8, 0], .ok [2, 0, 0, 0, 104, 105]] ++ [.wouldBlock]) =
      some (.ok ⟨7, 8, "hi"⟩) ↔ Unbroken [.wouldBlock, .ok [7, 0, 0, 0, 8, 0], .ok [2, 0, 0, 0, 104, 105]] :=
  handle_client_decodes (by decide) ⟨by
    intro result member
    simp only [List.mem_cons, List.not_mem_nil, or_false] at member
    rcases member with rfl | rfl | rfl <;> simp, by decide⟩ (.inl rfl)

/-- A `WouldBlock` behind the first half of the message ends it. -/
theorem handle_client_cuts :
    ¬ ∀ (order : ByteOrder) (data : Data) (results : List ReadResult) (last : ReadResult), data.fits →
      Delivers 1024 (data.serialize order) results → last = .wouldBlock ∨ last = .ok [] →
        handle_client order (results ++ [last]) = some (.ok data) := by
  intro decodes
  have decoded := decodes .little ⟨7, 8, "hi"⟩ [.ok [7, 0, 0, 0, 8, 0], .wouldBlock, .ok [2, 0, 0, 0, 104, 105]] .wouldBlock
    (by decide) ⟨by
      intro result member
      simp only [List.mem_cons, List.not_mem_nil, or_false] at member
      rcases member with rfl | rfl | rfl <;> simp, by decide⟩ (.inl rfl)
  revert decoded
  decide

end RustAsyncAwait.Server
