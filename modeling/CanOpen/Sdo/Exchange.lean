import CanOpen.Foundation.Loop
import CanOpen.Sdo.Client
import CanOpen.Sdo.Effect

/-! # A client driven against a server

The loop that carries each request of a client to whatever answers it and each
response back, until the client has nothing more to send.
-/

namespace CanOpen.Sdo

/-- A transaction between two requests: what the client last asked for, and the
responses it has been given. -/
structure Exchange (π : Type) where
  client : SdoClient
  peer : π
  event : SdoEvent
  replies : List SdoPayload

namespace Exchange

variable {π : Type}

/-- Deliver the pending request and its response. `serve` is told how many
responses came before. -/
def turn (serve : Nat → π → SdoPayload → Exec (π × Option SdoPayload))
    (exchange : Exchange π) : Exec (Option (Exchange π)) :=
  match exchange.event with
  | .send frame => do
      let (peer, response) ← serve exchange.replies.length exchange.peer frame
      let resp ← Exec.unwrap response
      let (client, event) ← exchange.client.onResponse resp
      pure (some ⟨client, peer, event, exchange.replies ++ [resp]⟩)
  | .complete _ | .aborted _ => pure none

def read (client : SdoClient) (peer : π) (addr : Address) (dataType : DataType) :
    Exchange π :=
  let (client, frame) := client.read addr dataType
  ⟨client, peer, .send frame, []⟩

def write (client : SdoClient) (peer : π) (addr : Address) (value : Value) :
    Exec (Exchange π) := do
  let (client, frame) ← client.write addr value
  pure ⟨client, peer, .send frame, []⟩

variable {serve : Nat → π → SdoPayload → Exec (π × Option SdoPayload)}
  {exchange : Exchange π}

theorem turn_send {frame resp : SdoPayload} {peer : π} {client : SdoClient}
    {event : SdoEvent} (sends : exchange.event = .send frame)
    (served : serve exchange.replies.length exchange.peer frame = pure (peer, some resp))
    (answered : exchange.client.onResponse resp = pure (client, event)) :
    exchange.turn serve = pure (some ⟨client, peer, event, exchange.replies ++ [resp]⟩) := by
  simp [turn, sends, served, answered]

theorem turn_eq_some_iff {next : Exchange π} :
    exchange.turn serve = pure (some next) ↔
      ∃ frame peer resp client event, exchange.event = .send frame ∧
        serve exchange.replies.length exchange.peer frame = pure (peer, some resp) ∧
        exchange.client.onResponse resp = pure (client, event) ∧
        next = ⟨client, peer, event, exchange.replies ++ [resp]⟩ := by
  constructor
  · intro taken
    unfold turn at taken
    split at taken
    · next frame sends =>
        rw [Exec.bind_eq_pure_iff] at taken
        rcases taken with ⟨⟨peer, response⟩, served, taken⟩
        rw [Exec.bind_eq_pure_iff] at taken
        rcases taken with ⟨resp, present, taken⟩
        rw [Exec.bind_eq_pure_iff] at taken
        rcases taken with ⟨⟨client, event⟩, answered, taken⟩
        rw [Exec.unwrap_eq_pure_iff] at present
        subst present
        rw [Exec.pure_inj, Option.some.injEq] at taken
        exact ⟨frame, peer, resp, client, event, sends, served, answered, taken.symm⟩
    · rw [Exec.pure_inj] at taken
      cases taken
    · rw [Exec.pure_inj] at taken
      cases taken
  · rintro ⟨frame, peer, resp, client, event, sends, served, answered, rfl⟩
    exact turn_send sends served answered

theorem turn_eq_none_iff :
    exchange.turn serve = pure none ↔ ∀ frame, exchange.event ≠ .send frame := by
  constructor
  · intro done frame sends
    simp only [turn, sends] at done
    rw [Exec.bind_eq_pure_iff] at done
    rcases done with ⟨_, _, done⟩
    rw [Exec.bind_eq_pure_iff] at done
    rcases done with ⟨_, _, done⟩
    rw [Exec.bind_eq_pure_iff] at done
    rcases done with ⟨_, _, done⟩
    rw [Exec.pure_inj] at done
    cases done
  · intro quiet
    unfold turn
    split
    · next frame sends => exact absurd sends (quiet frame)
    · rfl
    · rfl

theorem turn_complete {value : Option Value} (complete : exchange.event = .complete value) :
    exchange.turn serve = pure none :=
  turn_eq_none_iff.mpr (by simp [complete])

theorem turn_aborted {code : UInt32} (aborted : exchange.event = .aborted code) :
    exchange.turn serve = pure none :=
  turn_eq_none_iff.mpr (by simp [aborted])

end Exchange

/-! ## A server with its dictionary -/

structure Host (N : Nat) where
  server : SdoServer
  od : ObjectDictionary N

namespace Host

variable {N : Nat}

/-- Answer a request. `env position` is what happens to the dictionary after
the response number `position` and before the next request. -/
def serve (env : Nat → ObjectDictionary N → ObjectDictionary N) (position : Nat)
    (host : Host N) (req : SdoPayload) : Exec (Host N × Option SdoPayload) := do
  let out ← host.server.handle host.od req
  pure (⟨out.server, env position out.od⟩, out.response)

def undisturbed : Nat → ObjectDictionary N → ObjectDictionary N := fun _ od => od

theorem turn_handled (env : Nat → ObjectDictionary N → ObjectDictionary N)
    (exchange : Exchange (Host N)) {frame resp : SdoPayload} {server : SdoServer}
    {od : ObjectDictionary N} {client : SdoClient} {event : SdoEvent}
    (sends : exchange.event = .send frame)
    (handled : exchange.peer.server.handle exchange.peer.od frame =
      pure ⟨server, od, some resp⟩)
    (answered : exchange.client.onResponse resp = pure (client, event)) :
    exchange.turn (serve env) =
      pure (some ⟨client, ⟨server, env exchange.replies.length od⟩, event,
        exchange.replies ++ [resp]⟩) := by
  refine Exchange.turn_send sends ?_ answered
  simp [serve, handled]

end Host

end CanOpen.Sdo
