import DSFramework.DSRPC.HelloWorldTestService
import DSFramework.DSRPC.Exchange.Results

/-!
# The greeting of a call

Where the functions that the server calls under the service's name are those of `HelloWorldService`,
a client that has called it gets a greeting, in every run of clients and server. Of the other
services nothing is asked but that they change at most a packet's result.

Nothing is asked of lengths either, once the request has been packed: a client reads no body that is
longer than `bodyMaxSize`, and what is in it is short enough to be unpacked.
-/

namespace DSFramework.DSRPC

open DSCommunication (Endian Connection)

variable {packing : Packing} {runtime : Runtime}
  {leftover : AnyMessage → HelloWorldServiceParameters}

namespace HelloWorldService

/-- Only the parameters are unpacked. -/
theorem parameters_congr {packet packet' : RPCPacket} (h : packet.parameters = packet'.parameters) :
    parameters packing runtime packet = parameters packing runtime packet' := by
  rw [parameters, parameters, h]

/-- The contract of the service: the check asks that the parameters can be unpacked. -/
def contract (packing : Packing) (runtime : Runtime)
    (leftover : AnyMessage → HelloWorldServiceParameters) : Contract where
  pre service parameters := service = serviceName →
    parametersCheck packing runtime { parameters := parameters } = true
  post service parameters result := service = serviceName →
    ∃ packet : RPCPacket, packet.parameters = parameters ∧
      result = (execute packing runtime leftover packet).result

/-- What meets the contract is a greeting. -/
theorem greeting_of_contract {packet : RPCPacket} (hservice : packet.service = serviceName)
    (hpre : (contract packing runtime leftover).pre packet.service packet.parameters)
    (hpost : (contract packing runtime leftover).post packet.service packet.parameters
      packet.result)
    (hsize : packet.byteSizeLong + 13 < Runtime.sizeLimit) :
    ∃ p, parameters packing runtime packet = some p ∧
      result packing runtime packet = some (greeting p) := by
  obtain ⟨-, p, hp⟩ := parametersCheck_iff.mp (hpre hservice)
  have hparameters : parameters packing runtime packet = some p :=
    (parameters_congr rfl).trans hp
  obtain ⟨executed, hsame, hresult⟩ := hpost hservice
  have hle := byteSizeLong_parameters hparameters
  have hexecuted : HelloWorldService.result packing runtime
      (execute packing runtime leftover executed) = some (greeting p) :=
    result_execute ((parameters_congr hsame).trans hparameters) (by omega)
  refine ⟨p, hparameters, ?_⟩
  rw [← hexecuted, result, result, hresult]

end HelloWorldService

/-- The server in which the functions that are called under the service's name are the service's. -/
def RPCServer.greets (packing : Packing) (runtime : Runtime)
    (leftover : AnyMessage → HelloWorldServiceParameters) (v : RPCServer) (l : RPCLabel) : Bool :=
  v.answers l fun a answer op => match op with
    | .checkServiceParameter serviceName =>
      serviceName != HelloWorldService.serviceName || !answer.outcome.isReturn ||
        answer.outcome == .returned
          (HelloWorldService.parametersCheck packing runtime (v.packet a))
    | .running => (v.packets[a]?).all fun c =>
      c.serviceName != some HelloWorldService.serviceName || !answer.outcome.isReturn ||
        answer.packet == HelloWorldService.execute packing runtime leftover c.packet
    | _ => true

/-- The service's functions keep to its contract. -/
theorem RPCServer.promises_of_greets {v : RPCServer} {l : RPCLabel}
    (h : v.greets packing runtime leftover l = true) :
    v.promises (HelloWorldService.contract packing runtime leftover) l := by
  cases l with
  | advance t answer =>
    intro role s a op rest hat
    simp only [greets, answers, hat] at h
    cases op with
    | checkServiceParameter serviceName =>
      intro houtcome hservice
      simp only [hservice, houtcome, Outcome.isReturn, bne_self_eq_false, Bool.not_true,
        Bool.false_or, beq_iff_eq, Outcome.returned.injEq] at h
      exact h.symm
    | running =>
      intro hreturn c name hc hname _ hservice
      simp only [hc, Option.all_some, hname, hservice, hreturn, bne_self_eq_false, Bool.not_true,
        Bool.false_or, beq_iff_eq] at h
      exact ⟨c.packet, rfl, congrArg RPCPacket.result h⟩
    | _ => trivial
  | _ => trivial

namespace Exchange

variable {C : Setting} {e : Nat → Endian} {x : Exchange}

/-- The server greets. -/
def Greets (packing : Packing) (runtime : Runtime)
    (leftover : AnyMessage → HelloWorldServiceParameters) (x : Exchange) : ExchangeLabel → Prop
  | .serve l => x.server.greets packing runtime leftover l = true
  | _ => True

theorem promises_of_greets {l : ExchangeLabel} (h : Greets packing runtime leftover x l) :
    Promises (HelloWorldService.contract packing runtime leftover) x l := by
  cases l with
  | serve l => exact RPCServer.promises_of_greets h
  | _ => trivial

/-- What a client has parsed is short. -/
theorem Joined.byteSizeLong_le (h : x.Joined runtime C) (s : Nat) {packet : RPCPacket}
    (hparsed : some packet ∈ (x.down s).reader.onData.map (RPCPacket.parseFromArray runtime)) :
    packet.byteSizeLong ≤ 4111 := by
  obtain ⟨body, hbody, hpacket⟩ := List.mem_map.mp hparsed
  obtain ⟨frame, hframe, rfl⟩ := List.mem_map.mp ((h.down s).delivered.mem hbody)
  have hle := ((h.down s).frames frame hframe).body_le
  have hsize := RPCPacket.byteSizeLong_parseFromArray hpacket
  simp only [DSCommunication.bodyMaxSize] at hle
  omega

/-- THE GREETING, in every run of any clients and the server in which the functions called under the
service's name are the service's: a packet of the service that a client parses with the status
`COMPLETED` can be unpacked, and its result is the greeting of its parameters. Where the client has
been called once, with the service's request, it is the greeting of that name and message, and it is
what the stub keeps. -/
theorem greeted_of_reachable (h : (machine (C.generated runtime) e).ReachableBy
      (fun x l => Ok runtime x l ∧ Greets packing runtime leftover x l) x) (s : Nat)
    {packet : RPCPacket}
    (hparsed : some packet ∈ (x.down s).reader.onData.map (RPCPacket.parseFromArray runtime))
    (hstatus : packet.status = .completed) :
    (packet.service = HelloWorldService.serviceName →
      ∃ p, HelloWorldService.parameters packing runtime packet = some p ∧
        HelloWorldService.result packing runtime packet = some (HelloWorldService.greeting p)) ∧
    ∀ name msg «from» «to»,
      x.called s = [HelloWorldService.createHelloWorldServiceRequestPacket packing name msg «from»
        «to»] →
      HelloWorldServiceParameters.byteSizeLong { name := name, message := msg } ≤ 2147483647 →
      HelloWorldService.result packing runtime packet =
          some { message := "Hello " ++ name ++ " " ++ msg } ∧
        ∀ clientid, ((RPCClientStub.new clientid).receive (RPCPacket.parseFromArray runtime)
          (x.down s).reader.onData).cachedRequestPacket = some packet := by
  have hjoined := joined_of_reachable (h.mono fun _ _ hok => hok.1)
  have hdelivers := RPCServer.delivers_of_reachable (server_of_reachable
    (h.mono fun _ _ hok => And.intro hok.1 (promises_of_greets hok.2)))
  obtain ⟨⟨call, hcall, hservice, hparameters, hpre, hpost⟩, hkept⟩ :=
    hjoined.results hdelivers s hparsed hstatus
  rw [← hservice, ← hparameters] at hpre hpost
  have hsize := hjoined.byteSizeLong_le s hparsed
  have hlimit : packet.byteSizeLong + 13 < Runtime.sizeLimit := by
    simp only [Runtime.sizeLimit]
    omega
  have hgreeting : packet.service = HelloWorldService.serviceName →
      ∃ p, HelloWorldService.parameters packing runtime packet = some p ∧
        HelloWorldService.result packing runtime packet = some (HelloWorldService.greeting p) :=
    fun hname => HelloWorldService.greeting_of_contract hname hpre hpost hlimit
  refine ⟨hgreeting, fun name msg «from» «to» hcalled hpacked => ?_⟩
  rw [hcalled, List.mem_singleton] at hcall
  subst hcall
  obtain ⟨p, hp, hresult⟩ := hgreeting hservice
  -- what was packed is in the packet that has come back
  have hfits := HelloWorldService.length_value_le hparameters
  rw [AnyMessage.packFrom, HelloWorldServiceParameters.length_internalSerialize,
    if_pos hpacked, HelloWorldServiceParameters.length_internalSerialize] at hfits
  have hshort : HelloWorldServiceParameters.byteSizeLong { name := name, message := msg } <
      Runtime.sizeLimit := by
    omega
  have hsent : HelloWorldService.parameters packing runtime _ = _ :=
    HelloWorldService.parameters_createHelloWorldServiceRequestPacket hshort «from» «to»
  rw [HelloWorldService.parameters_congr hparameters, hsent] at hp
  cases hp
  exact ⟨hresult, hkept _ hcalled (.inl rfl)⟩

/-- The request of the concrete run. -/
def greetingRequest : RPCPacket :=
  HelloWorldService.createHelloWorldServiceRequestPacket .google "A" "b" "" ""

/-- It is this packet in the server when it has been committed. -/
def greetingAccepted : RPCPacket :=
  { greetingRequest with
    requestId := "i", innerId := "session", status := .commited, error := .pktNoError }

/-- What the service leaves. -/
def greetingExecuted : RPCPacket :=
  HelloWorldService.execute .google .wire (fun _ => {}) greetingAccepted

/-- The server as `TestRPCServer` starts it, with shorter queues. -/
def greetingExchange : Exchange :=
  { sampleExchange with server := RPCServer.new [.io 0, .worker] [("HelloWorldService", 0)] }

/-- The request arrives and is executed. The response dispatcher's queue has room for one response,
so the second and the third are dropped; the others arrive. -/
def sampleGreeting : List ExchangeLabel :=
  [.call 0 greetingRequest] ++ List.replicate 107 (ExchangeLabel.rise 0 .transmit) ++
    [.rise 0 (.complete 0 true), .rise 0 .read, .deliver 0 1] ++
    List.replicate 13 (.serve (.advance 1 { uid := "i" })) ++ [.serve (.take 0)] ++
    List.replicate 8 (.serve (.advance 0 { packet := greetingAccepted })) ++
    (RPCServer.sendResponses 1).map .serve ++ [.serve (.take 2)] ++
    List.replicate 9 (.serve (.advance 2 { packet := greetingExecuted })) ++
    (RPCServer.sendResponses 1).map .serve ++
    ([121, 206].map fun n => List.replicate (n + 2) (ExchangeLabel.fall 0 .transmit) ++
      [ExchangeLabel.fall 0 (.complete 0 true), .fall 0 .read, .fall 0 .read]).flatten

/-- Does the server greet? -/
def greetsNow (x : Exchange) : ExchangeLabel → Bool
  | .serve l => x.server.greets .google .wire (fun _ => {}) l
  | _ => true

/-- The client has been greeted. -/
theorem greeted_of_reachable_one :
    ∃ x, (machine ((RPCServer.sampleSetting 8 1).generated .wire) fun _ => .big).run
        greetingExchange sampleGreeting = some x ∧
      ∃ packet, some packet ∈
          (x.down 0).reader.onData.map (RPCPacket.parseFromArray .wire) ∧
        packet.status = .completed ∧
        HelloWorldService.result .google .wire packet = some { message := "Hello A b" } ∧
        ((RPCClientStub.new "client").receive (RPCPacket.parseFromArray .wire)
          (x.down 0).reader.onData).cachedRequestPacket = some packet := by
  have hruns : ((machine ((RPCServer.sampleSetting 8 1).generated .wire) fun _ => .big).run
      greetingExchange sampleGreeting).any (fun x => x.called 0 = [greetingRequest] ∧
        (((x.down 0).reader.onData.map (RPCPacket.parseFromArray .wire)).any fun p =>
          p.any fun packet => packet.status == .completed) = true) = true := by
    decide +kernel
  obtain ⟨x, hrun, hx⟩ := (Option.any_eq_true _ _).mp hruns
  obtain ⟨hcalled, hany⟩ := of_decide_eq_true hx
  obtain ⟨parsed, hparsed, hcompleted⟩ := List.any_eq_true.mp hany
  obtain ⟨packet, rfl, hstatus⟩ := (Option.any_eq_true _ _).mp hcompleted
  have hreachable : (machine ((RPCServer.sampleSetting 8 1).generated .wire)
      fun _ => .big).ReachableBy
        (fun x l => Ok .wire x l ∧ Greets .google .wire (fun _ => {}) x l) x := by
    refine .run (fun x l (h : (keepsTo x l && greetsNow x l) = true) => ?_)
      (.start ⟨⟨_, _, by decide, rfl⟩, rfl⟩) (by decide +kernel) hrun
    obtain ⟨hkeeps, hgreets⟩ := Bool.and_eq_true_iff.mp h
    refine ⟨ok_of_keepsTo hkeeps, ?_⟩
    cases l with
    | serve l => exact hgreets
    | _ => trivial
  obtain ⟨-, hcall⟩ := greeted_of_reachable hreachable 0 hparsed (eq_of_beq hstatus)
  obtain ⟨hresult, hcached⟩ := hcall "A" "b" "" "" hcalled (by decide)
  exact ⟨x, hrun, packet, hparsed, eq_of_beq hstatus, hresult, hcached "client"⟩

end Exchange

end DSFramework.DSRPC
