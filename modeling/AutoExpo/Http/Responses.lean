import AutoExpo.Kit.SelfDelimiting
import AutoExpo.Http.Clients

/-!
# What a client reads

A client does not see the calls that are served, only the bytes that have arrived. But a
response tells the length of its body before the body, so the responses of a stream can be
told apart, in one way only (`response_selfDelimiting`).

So what a client can read at any moment, on however slow a network, are the replies to its
first calls, and these have been made of the cameras by then (`replies_told`).
-/

namespace AutoExpo.Http

open Kit Decimal

theorem bytes_decimal_injective : Function.Injective fun n => bytes (decimal n) := by
  intro n m h
  apply decimal_injective
  rw [← text_bytes_decimal n, ← text_bytes_decimal m]
  exact congrArg text h

theorem CR_notMem_decimal (n : Nat) : CR ∉ bytes (decimal n) := by
  intro h
  exact absurd (mem_bytes_decimal h).1 (by decide)

/-- The length is followed by the first CR after it. -/
theorem heading_flatten (length : Nat) : (heading length).flatten =
    ((heading 0).take 8).flatten ++ (bytes (decimal length) ++ CR :: [LF, CR, LF]) := by
  have hparts : heading length =
      (heading 0).take 8 ++ [bytes (decimal length), [CR, LF, CR, LF]] := rfl
  rw [hparts, List.flatten_append]
  rfl

theorem heading_selfDelimiting : SelfDelimiting fun length => (heading length).flatten := by
  simp only [heading_flatten]
  exact (SelfDelimiting.marked bytes_decimal_injective CR_notMem_decimal _).before _

theorem response_selfDelimiting : SelfDelimiting response :=
  heading_selfDelimiting.sized

variable {ι : Type*} [DecidableEq ι]

/-- In any run that has gone well: the responses that can be read off what a client has got are
the replies to its first calls, as far as they have arrived, and these calls have been made. -/
theorem replies_told (events : List (Event ι)) (hclean : (Clients.run events).Clean) (i : ι) :
    ∃ calls : List Call,
      ((Clients.run events).conn i).user.user = calls.filterMap Call.request ∧
      ∀ bodies : List Bytes,
        bodies.flatMap response <+: ((Clients.run events).loop.out i).wire ↔
          bodies <+: calls.map Call.reply ∧
            (bodies.flatMap response).length ≤ ((Clients.run events).loop.out i).wire.length := by
  have hapart := Apart.start.run events hclean
  obtain ⟨calls, hserved⟩ := alone_served i events
  have hheld : ((Clients.run events).loop.out i).wire <+:
      (calls.map Call.reply).flatMap response := by
    rw [List.flatMap_map, ← hserved.responses, ← hapart.held i]
    exact List.prefix_append _ _
  refine ⟨calls, ?_, ?_⟩
  · have hsame : (Clients.run events).conn i = _ := hapart.same i
    rw [hsame, Connection.user_map]
    exact hserved.requests
  · intro bodies
    rw [← response_selfDelimiting.prefix_iff]
    refine ⟨fun h => ⟨h.trans hheld, h.length_le⟩, ?_⟩
    rintro ⟨h, hlen⟩
    exact List.prefix_of_prefix_length_le h hheld hlen

theorem replies_told_twoClients : ∃ calls : List Call,
    ((Clients.run twoClients).conn true).user.user = calls.filterMap Call.request ∧
    ∀ bodies : List Bytes, bodies.flatMap response <+: ((Clients.run twoClients).loop.out true).wire →
      bodies <+: calls.map Call.reply := by
  obtain ⟨calls, hmade, hread⟩ :=
    replies_told twoClients (Apart.start.run_clean ⟨rfl, rfl⟩ twoClients_fit) true
  exact ⟨calls, hmade, fun bodies h => ((hread bodies).mp h).1⟩

end AutoExpo.Http
