import RelayStore.Proofs.Cluster.Members
import RelayStore.Proofs.Request.Accepted
import RelayStore.Proofs.Session.Readback

/-! # One request of a client

What a node does with a text without newline that a client sends. If no request is taken
from it, the node only replies. Otherwise it answers the one line that it reads. Either
way one reply is written, and it is one line if the node's store is clean.
-/
namespace RelayStore
open Text

namespace Traffic
variable (i : Nat) (t : Traffic) {text : String}

theorem serveAt_of_item {src : Source} {item : Item} (h : src.items.1 = [item]) :
    serveAt i t src =
      ((respond (answer i) t item).1, sentLine (respond (answer i) t item).2.render) := by
  rw [serveAt_eq, h]
  simp only [transcript, Reply.bytes, List.flatMap_cons, List.flatMap_nil, List.append_nil]

theorem serveAt_of_parse {src : Source} {line : String} {r : Request}
    (hitems : src.items.1 = [.line line]) (hparse : Request.parse line = .ok r) :
    serveAt i t src =
      ((answer i t line).1, sentLine ((t.cluster.storeAt i).replyTo r.command).render) := by
  rw [serveAt_of_item i t hitems, respond, answer_reply i t hparse]

/-- Either no request is taken and nothing changes, or the line is answered. -/
theorem serveAt_sent (hnl : '\n' ∉ text.toList) (hblank : isBlank text = false) :
    (Request.ofSent text = [] ∧ ∃ reply : Reply, reply.IsLine ∧
      serveAt i t ⟨[sentLine text], .idle⟩ = (t, sentLine reply.render)) ∨
    ∃ line r, '\n' ∉ line.toList ∧ trim line = trim text ∧ Request.parse line = .ok r ∧
      Request.ofSent text = [r] ∧
      serveAt i t ⟨[sentLine text], .idle⟩ =
        ((answer i t line).1, sentLine ((t.cluster.storeAt i).replyTo r.command).render) := by
  rcases sent_cases hnl hblank with ⟨hitems, hnone⟩ | ⟨line, hline, htrim, hitems, hsent⟩
  · exact .inl ⟨hnone, tooLongReply, Reply.isLine_tooLong, serveAt_of_item i t hitems⟩
  · cases hparse : Request.parse line with
    | error e =>
      rw [hparse] at hsent
      refine .inl ⟨hsent, e.reply, Rejection.isLine_reply hparse, ?_⟩
      rw [serveAt_of_item i t hitems, respond, answer_of_rejected i t hparse]
    | ok r =>
      rw [hparse] at hsent
      exact .inr ⟨line, r, hline, htrim, hparse, hsent, serveAt_of_parse i t hitems hparse⟩

end Traffic
end RelayStore
