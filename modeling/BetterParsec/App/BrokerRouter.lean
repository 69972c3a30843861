import BetterParsec.Input.InputWire
import BetterParsec.Library.HeldKeys
import BetterParsec.Library.Runs

set_option autoImplicit false
set_option linter.all false

/-!
# Keyboard routing of the broker

`BrokerRouter` of `app-native/src/input.rs`. A modifier that is pressed is held
back until the next key shows whether it belongs to a chord of this machine; what
is forwarded is remembered until it is released.
-/

namespace BetterParsec

namespace Broker

namespace Vk

def shift : UInt32 := 0x10

def control : UInt32 := 0x11

def menu : UInt32 := 0x12

def delete : UInt32 := 0x2E

def q : UInt32 := 0x51

def lwin : UInt32 := 0x5B

def rwin : UInt32 := 0x5C

def f4 : UInt32 := 0x73

def lshift : UInt32 := 0xA0

def rshift : UInt32 := 0xA1

def lcontrol : UInt32 := 0xA2

def rcontrol : UInt32 := 0xA3

def lmenu : UInt32 := 0xA4

def rmenu : UInt32 := 0xA5

def oem3 : UInt32 := 0xC0

end Vk

-- The flags CTRL, SHIFT, ALT and META.
structure KeyModifiers where
  ctrl : Bool
  shift : Bool
  alt : Bool
  win : Bool
  deriving DecidableEq

-- `InboundPacket::Key`; the flags are always empty.
structure KeyPacket where
  action : KeyAction
  modifiers : KeyModifiers
  key : UInt16
  deriving DecidableEq

structure BrokerRouter where
  ctrl : Bool := false
  rightCtrl : Bool := false
  shift : Bool := false
  rightShift : Bool := false
  leftAlt : Bool := false
  rightAlt : Bool := false
  leftMeta : Bool := false
  rightMeta : Bool := false
  pending : List (UInt32 × KeyModifiers) := []
  sentDown : List UInt32 := []
  deriving DecidableEq

def isAltKey (vk : UInt32) : Bool := vk = Vk.menu || vk = Vk.lmenu || vk = Vk.rmenu

namespace BrokerRouter

def modifier (vk : UInt32) : Bool :=
  vk = Vk.control || vk = Vk.lcontrol || vk = Vk.rcontrol || vk = Vk.shift || vk = Vk.lshift ||
    vk = Vk.rshift || isAltKey vk || vk = Vk.lwin || vk = Vk.rwin

-- `VK_MENU` itself changes nothing.
def update (router : BrokerRouter) (vk : UInt32) (keyUp : Bool) : BrokerRouter :=
  let down := !keyUp
  if vk = Vk.control ∨ vk = Vk.lcontrol then { router with ctrl := down }
  else if vk = Vk.rcontrol then { router with rightCtrl := down }
  else if vk = Vk.shift ∨ vk = Vk.lshift then { router with shift := down }
  else if vk = Vk.rshift then { router with rightShift := down }
  else if vk = Vk.lmenu then { router with leftAlt := down }
  else if vk = Vk.rmenu then { router with rightAlt := down }
  else if vk = Vk.lwin then { router with leftMeta := down }
  else if vk = Vk.rwin then { router with rightMeta := down }
  else router

def modifiers (router : BrokerRouter) : KeyModifiers where
  ctrl := router.ctrl || router.rightCtrl
  shift := router.shift || router.rightShift
  alt := router.leftAlt || router.rightAlt
  win := router.leftMeta || router.rightMeta

def packetWithModifiers (action : KeyAction) (vk : UInt32) (modifiers : KeyModifiers) : KeyPacket :=
  ⟨action, modifiers, vk.toUInt16⟩

def packet (router : BrokerRouter) (action : KeyAction) (vk : UInt32) : KeyPacket :=
  ⟨action, router.modifiers, vk.toUInt16⟩

def rememberSent (router : BrokerRouter) (vk : UInt32) : BrokerRouter :=
  if vk ∈ router.sentDown then router
  else { router with sentDown := router.sentDown ++ [vk] }

def forgetSent (router : BrokerRouter) (vk : UInt32) : BrokerRouter × Bool :=
  if vk ∈ router.sentDown then ({ router with sentDown := router.sentDown.erase vk }, true)
  else (router, false)

def localOnly (router : BrokerRouter) (vk : UInt32) : Bool :=
  let ctrl := router.ctrl || router.rightCtrl
  let alt := router.leftAlt || router.rightAlt
  let safetyKey := vk = Vk.delete || vk = Vk.q || vk = Vk.oem3
  (ctrl && alt && safetyKey) || (vk = Vk.f4 && alt)

-- What a call of `route` gives beside the packets.
structure Routed where
  packets : List KeyPacket
  exitImmersive : Bool := false
  disconnect : Bool := false

def routeDown (router : BrokerRouter) (vk : UInt32) : BrokerRouter × Routed :=
  let router := router.update vk false
  if modifier vk then
    if router.pending.any (·.1 = vk) || vk ∈ router.sentDown then (router, { packets := [] })
    else ({ router with pending := router.pending ++ [(vk, router.modifiers)] }, { packets := [] })
  else if router.localOnly vk then
    ({ router with pending := [] },
      { packets := [], exitImmersive := vk = Vk.q, disconnect := vk = Vk.oem3 })
  else
    let packets := router.pending.map fun (pending, modifiers) =>
      packetWithModifiers .down pending modifiers
    let sent := (router.pending.map Prod.fst).foldl rememberSent { router with pending := [] }
    (sent.rememberSent vk, { packets := packets ++ [sent.packet .down vk] })

def releaseKey (router : BrokerRouter) (vk : UInt32) : BrokerRouter × Routed :=
  match router.forgetSent vk with
  | (router, true) => (router, { packets := [router.packet .up vk] })
  | (router, false) => (router, { packets := [] })

def routeUp (router : BrokerRouter) (vk : UInt32) : BrokerRouter × Routed :=
  if modifier vk then
    let wasPending := router.pending.find? (·.1 = vk)
    let router := router.update vk true
    match wasPending with
    | some (pendingVk, downModifiers) =>
        let router := { router with pending := router.pending.eraseP (·.1 = vk) }
        (router, { packets :=
          [packetWithModifiers .down pendingVk downModifiers, router.packet .up vk] })
    | none => router.releaseKey vk
  else router.releaseKey vk

def route (router : BrokerRouter) (vk : UInt32) (keyUp : Bool) : BrokerRouter × Routed :=
  if keyUp then router.routeUp vk else router.routeDown vk

-- Each packet has the modifiers that are left once its key is up.
def releaseKeys : BrokerRouter → List UInt32 → BrokerRouter × List KeyPacket
  | router, [] => (router, [])
  | router, vk :: keys =>
      let router := router.update vk true
      let (last, packets) := releaseKeys router keys
      (last, router.packet .up vk :: packets)

def releaseSent (router : BrokerRouter) : BrokerRouter × List KeyPacket :=
  let (router, packets) := releaseKeys { router with sentDown := [] } router.sentDown.reverse
  ({ router with pending := [] }, packets)

end BrokerRouter

inductive Call where
  | route (vk : UInt32) (keyUp : Bool)
  | releaseSent
  deriving DecidableEq

def step (router : BrokerRouter) : Call → BrokerRouter × List KeyPacket
  | .route vk keyUp =>
      let (router, routed) := router.route vk keyUp
      (router, routed.packets)
  | .releaseSent => router.releaseSent

end Broker

end BetterParsec
