import VirtualModem.Sim.Control
import VirtualModem.Sim.Access
/-!
# Runs of operations on a SIM card
-/

namespace VirtualModem.Sim
set_option autoImplicit false

def control (s : Sim) : Control → Reply
  | .init => s.settle (.ok (s, .done))
  | .setPin pin => s.settle ((s.setPin pin).map (·, .done))
  | .setPuk puk => s.settle ((s.setPuk puk).map (·, .done))
  | .setSlot slot => s.settle (.ok (s.setSlot slot, .done))
  | .setImsi imsi => s.settle ((s.setImsi imsi).map (·, .done))
  | .setIccid iccid => s.settle ((s.setIccid iccid).map (·, .done))
  | .setPhone number => s.settle ((s.setPhone number).map (·, .done))
  | .setOperator name => s.settle (.ok (s.setOperator name, .done))
  | .setNetwork mcc mnc => s.settle ((s.setNetwork mcc mnc).map (·, .done))
  | .reportState state => ⟨s.enterState state, .ok .done, s.stateNotices state⟩
  | .reportToolkit event => ⟨s.countToolkitEvent, .ok .done, s.toolkitNotices event⟩
  | .expectConfirmation b => s.settle (.ok ({ s with toolkit.confirmation := b }, .done))
  | .setAccessTest b => s.settle (.ok ({ s with accessTest := b }, .done))
  | .isPinEnabled => s.settle (.ok (s, .flag s.pinEnabled))
  | .openChannels => s.settle (.ok (s, .numbers s.openChannels))

def request (s : Sim) : Request → Reply
  | .selectCard slot => s.settle ((s.selectCard slot).map fun _ => (s, .done))
  | .selectedCard => s.settle (.ok (s, .slot s.slot))
  | .state => s.settle (.ok (s, .state s.state))
  | .addStateHandler label =>
    s.settle (.ok (s.addStateHandler (.recorder label), .number s.stateHandlers.nextRef.toNat))
  | .removeStateHandler ref => s.settle ((s.removeStateHandler ref).map (·, .done))
  | .enterPin _ code => s.enterPin code
  | .enterPuk _ puk newPin => s.enterPuk puk newPin
  | .pinAttempts _ => s.settle (s.pinAttempts.map fun n => (s, .number n))
  | .pukAttempts _ => s.settle (s.pukAttempts.map fun n => (s, .number n))
  | .changePin _ code newPin => s.settle ((s.changePin code newPin).map (·, .done))
  | .enablePin _ code => s.settle ((s.enablePin code).map (·, .done))
  | .disablePin _ code => s.settle ((s.disablePin code).map (·, .done))
  | .iccid => s.settle (s.readIccid.map fun t => (s, .text t))
  | .imsi => s.settle (s.readImsi.map fun t => (s, .text t))
  | .phone => s.settle (s.readPhone.map fun t => (s, .text t))
  | .operator => s.settle (s.readOperator.map fun t => (s, .text t))
  | .network => s.settle (s.readNetwork.map fun (mcc, mnc) => (s, .network mcc mnc))
  | .openChannel => s.settle (s.openChannel.map fun (t, c) => (t, .number c))
  | .closeChannel channel => s.settle ((s.closeChannel channel).map (·, .done))
  | .sendApdu bytes => s.settle ((s.sendApdu bytes).map fun bs => (s, .bytes bs))
  | .refresh => s.settle (.ok (s, .done))
  | .addToolkitHandler label =>
    s.settle (.ok (s.addToolkitHandler label, .number s.toolkit.handlers.nextRef.toNat))
  | .removeToolkitHandler ref => s.settle ((s.removeToolkitHandler ref).map (·, .done))
  | .confirmToolkit b => s.settle ((s.confirmToolkit b).map fun _ => (s, .done))
  | .sendCommand _ => s.settle (.ok (s, .response .success))

def perform (s : Sim) : Operation → Reply
  | .control c => s.control c
  | .request r => s.request r

def afterAll (s : Sim) (ops : List Operation) : Sim :=
  ops.foldl (fun t op => (t.perform op).card) s

def replies (s : Sim) : List Operation → List Reply
  | [] => []
  | op :: ops => s.perform op :: (s.perform op).card.replies ops

@[simp] theorem afterAll_nil (s : Sim) : s.afterAll [] = s := rfl

@[simp] theorem afterAll_cons (s : Sim) (op : Operation) (ops : List Operation) :
    s.afterAll (op :: ops) = (s.perform op).card.afterAll ops := rfl

theorem afterAll_append (s : Sim) (ops more : List Operation) :
    s.afterAll (ops ++ more) = (s.afterAll ops).afterAll more :=
  List.foldl_append

theorem replies_append (s : Sim) (ops more : List Operation) :
    s.replies (ops ++ more) = s.replies ops ++ (s.afterAll ops).replies more := by
  induction ops generalizing s with
  | nil => rfl
  | cons op ops ih => simp [replies, ih]

end VirtualModem.Sim
