import EveAgent.FileDist.RecvConfig
import EveAgent.FileDist.SendConfig

namespace EveAgent.FileDist.Recv

/-- What an agent relays is parsed at the next one, by the thread that has read its connection to
the end, exactly when its length is no multiple of the packet. -/
theorem relayed_parsed_iff (pcBuffer : Text) (delFlag : Int) (destination : Destination)
    (accepts : destination.Accepts) (ended : Ended pcBuffer) (text : Nat → Text) (connection : Nat)
    (sent : text connection = (sendBuffer (parsed pcBuffer delFlag) destination).1)
    (labels : List Label) (s : State)
    (regular : Machine.Along (step text) (Regular text) Recv.start labels)
    (executed : Machine.run (step text) Recv.start labels = some s) (h : Handler)
    (member : h ∈ s.handlers) (reads : h.iTCPclientFd = some connection)
    (whole : (text connection).length ≤ s.delivered connection) :
    h.parsed = [pcBuffer] ↔ (i32 pcBuffer.length).tmod bufsize ≠ 0 := by
  have kept : ∀ s label t, (∃ started waiting, Inv text s started waiting) →
      Regular text s label → step text s label = some t →
        ∃ started waiting, Inv text t started waiting := by
    rintro s label t ⟨started, waiting, inv⟩ allowed taken
    exact step_inv inv allowed taken
  obtain ⟨started, waiting, inv⟩ :=
    Machine.run_invariant kept ⟨[], [], start_free text⟩ regular executed
  have begun : h ∈ started := by
    rw [inv.handlers] at member
    rcases List.mem_append.mp member with begun | idle
    · exact begun
    · cases inv.handed with
      | all _ _ | create _ _ _ _ => cases idle
      | fresh _ _ _ _ =>
        rw [List.mem_singleton.mp idle] at reads
        cases reads
  obtain ⟨other, serving⟩ := inv.serving h begun
  obtain rfl := Option.some.inj (reads.symm.trans serving.descriptor)
  have filled : pcBuffer ≠ [] := by
    rintro rfl
    exact absurd ended (by decide)
  have relayed : text connection = pcBuffer ↔ (i32 pcBuffer.length).tmod bufsize ≠ 0 := by
    rw [sent, sendBuffer_whole accepts]
    exact or_iff_right filled
  rw [← relayed, serving.parsed]
  have buffer := serving.buffer
  rw [List.take_of_length_le whole] at buffer
  constructor
  · intro is
    split at is
    · exact List.singleton_inj.mp is
    · cases is
  · intro same
    rw [same] at buffer ⊢
    cases stored : h.pcFDval with
    | none =>
      rw [stored] at buffer
      exact absurd buffer.symm filled
    | some pcFDval =>
      rw [stored] at buffer
      rw [if_pos ⟨congrArg some buffer, ended⟩]

theorem relayed_parsed_iff_short :
    ∃ s : State, ∃ h ∈ s.handlers, h.parsed = ["<FileDist></FileDist>".toList] := by
  let text : Nat → Text := fun _ =>
    (sendBuffer (parsed "<FileDist></FileDist>".toList 0) (recipient "10.0.0.1".toList)).1
  let labels : List Label := [.accept (some 0), .create true, .start 0 true true,
    .recv 0 21 true true]
  have computed : (Machine.run (step text) Recv.start labels).any (fun s =>
      decide (s.handlers.map Handler.iTCPclientFd = [some 0] ∧ s.delivered 0 = 21)) = true := by
    decide +kernel
  obtain ⟨s, executed, reads, delivered⟩ := Machine.run_of_any computed
  obtain ⟨h, one, reads⟩ := List.map_eq_singleton_iff.mp reads
  have member : h ∈ s.handlers := one ▸ List.mem_singleton_self h
  refine ⟨s, h, member, ?_⟩
  exact (relayed_parsed_iff _ 0 _ (recipient_accepts _) (by decide +kernel) text 0 rfl labels s
    (by decide +kernel) executed h member reads (by rw [delivered]; decide +kernel)).mpr
    (by decide +kernel)

end EveAgent.FileDist.Recv
