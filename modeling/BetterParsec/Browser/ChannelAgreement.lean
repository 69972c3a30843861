import BetterParsec.Browser.Channels
import BetterParsec.Streamer.Outbound

set_option autoImplicit false
set_option linter.all false

/-!
# Packets as the browser reads them

The frames of `send_packet` against the channels and listeners of the browser.
A text is read whole when its length field holds its length; the two kinds of
rumble go to channels on which nothing listens.
-/

namespace BetterParsec

open BrowserInput BrowserInput.WriteBuffer

namespace Web

namespace Page

variable {State : Type} (page : Page) (channels : Channels)

theorem onMessage_eq (channel id : UInt8) (data : List UInt8)
    (fits : (id :: data).length ≤ 1000000) :
    (page.onMessage channels channel (id :: data) : Except String (List (Received State))) =
      .ok (if channel = id then page.deliver data (channels id) else []) := by
  obtain ⟨filled, load, loaded⟩ :=
    load_loaded page.big (id :: data) (by rw [page.bigCapacity]; exact fits)
  obtain ⟨rest, first, left⟩ := getU8_loaded loaded
  simp only [onMessage, bind, Except.bind, load, first]
  by_cases same : channel = id
  · rw [if_neg (not_not_intro same.symm), if_pos same, left.data, same]
    rfl
  · rw [if_pos (Ne.symm same), if_neg same]
    rfl

theorem onMessage_long (channel : UInt8) (frame : List UInt8) (long : 1000000 < frame.length) :
    ((page.onMessage channels channel frame : Except String (List (Received State)))).toOption =
      none := by
  have refused := load_refused page.big frame (by rw [page.bigCapacity]; exact long)
  simp only [onMessage, bind, Except.bind, refused]
  rfl

theorem nodup_all : TransportChannelId.all.Nodup := by decide

theorem flatMap_ite {α : Type} (ids : List UInt8) (id : UInt8) (found : List α)
    (nodup : ids.Nodup) (member : id ∈ ids) :
    ids.flatMap (fun other => if other = id then found else []) = found := by
  induction ids with
  | nil => exact absurd member List.not_mem_nil
  | cons other ids ih =>
    obtain ⟨fresh, nodup⟩ := List.nodup_cons.mp nodup
    rw [List.flatMap_cons]
    by_cases same : other = id
    · have none : ids.flatMap (fun other => if other = id then found else []) = [] := by
        rw [List.flatMap_eq_nil_iff]
        intro later among
        apply if_neg
        rintro rfl
        exact fresh (same ▸ among)
      rw [if_pos same, none, List.append_nil]
    · rw [if_neg same, List.nil_append]
      exact ih nodup ((List.mem_cons.mp member).resolve_left (Ne.symm same))

/-- A frame reaches the listeners of the channel it names, and no others. -/
theorem receive_eq (id : UInt8) (data : List UInt8) (known : id ∈ TransportChannelId.all)
    (fits : (id :: data).length ≤ 1000000) :
    (page.receive channels (id :: data) : List (Received State)) =
      page.deliver data (channels id) := by
  have each (channel : UInt8) :
      (page.onMessage channels channel (id :: data) :
        Except String (List (Received State))).toOption.getD [] =
          if channel = id then page.deliver data (channels id) else [] := by
    rw [onMessage_eq page channels channel id data fits]
    rfl
  simp only [receive, each]
  exact flatMap_ite _ id _ nodup_all known

theorem receive_long (frame : List UInt8) (long : 1000000 < frame.length) :
    (page.receive channels frame : List (Received State)) = [] := by
  simp only [receive, onMessage_long page channels _ frame long, Option.getD_none]
  exact List.flatMap_eq_nil_iff.mpr (fun _ _ => rfl)

-- What the browser reads of a text of these bytes behind its length field.
def textHeard (bytes : List UInt8) : List Char := textDecode (bytes.take (bytes.length % 65536))

variable (bytes : List UInt8)

theorem take_heard :
    (bytes.take (bytes.length % 65536)).length = bytes.length % 65536 := by
  rw [List.length_take]
  exact Nat.min_eq_left (Nat.mod_le _ _)

theorem onGeneralChannelMessage_text :
    (onGeneralChannelMessage (BigEndian.bytes 2 (bytes.length % 65536) ++ bytes) :
      Option (Received State)) = some (.general (textHeard bytes)) := by
  have field : ∃ high low, BigEndian.bytes 2 (bytes.length % 65536) = [high, low] := ⟨_, _, rfl⟩
  obtain ⟨high, low, field⟩ := field
  have value := BigEndian.value_bytes 2 (bytes.length % 65536)
  rw [field] at value
  have small : bytes.length % 65536 % 256 ^ 2 = bytes.length % 65536 := Nat.mod_mod _ _
  have enough : ¬ bytes.length < bytes.length % 65536 := Nat.not_lt.mpr (Nat.mod_le _ _)
  simp only [onGeneralChannelMessage, field, List.cons_append, List.nil_append, value, small,
    if_neg enough, textHeard]

theorem onRawData_text (fits : 2 + bytes.length ≤ 1000000) :
    (page.onRawData (BigEndian.bytes 2 (bytes.length % 65536) ++ bytes) :
      Except String (Option (Received State))) = .ok (some (.stats (textHeard bytes))) := by
  obtain ⟨filled, load, loaded⟩ :=
    load_loaded page.big (BigEndian.bytes 2 (bytes.length % 65536) ++ bytes) (by
      rw [page.bigCapacity, List.length_append, BigEndian.length_bytes]
      exact fits)
  obtain ⟨text, count, left⟩ := getU16_loaded _ loaded
  rw [← List.take_append_drop (bytes.length % 65536) bytes] at left
  obtain ⟨rest, decoded⟩ := getUtf8Raw_loaded left
  rw [take_heard] at decoded
  have length : (UInt16.ofNat (bytes.length % 65536)).toNat = bytes.length % 65536 := by simp
  simp only [onRawData, reading, bind, StateT.bind, Except.bind, load, count, length, decoded]
  rfl

end Page

end Web

open Web

section Texts

theorem length_withoutMark_le (text : List Char) :
    (Web.DesktopControl.withoutMark text).length ≤ text.length := by
  cases text with
  | nil => exact Nat.le_refl _
  | cons c text =>
    rw [Web.DesktopControl.withoutMark]
    split
    · exact Nat.le_succ _
    · exact Nat.le_refl _

theorem withoutMark_json (json : JsonText) :
    Web.DesktopControl.withoutMark json.text = json.text := by
  have unmarked := json.unmarked
  cases text : json.text with
  | nil => rfl
  | cons c rest =>
    rw [text, List.head?_cons] at unmarked
    exact if_neg (fun mark => unmarked (congrArg some mark))

/-- The browser reads a text whole exactly when its length fits the field. -/
theorem textHeard_iff (json : JsonText) :
    Page.textHeard (Utf8.encode json.text) = json.text ↔
      (Utf8.encode json.text).length < 65536 := by
  constructor
  · intro whole
    by_contra long
    have shorter := Utf8.length_lossy_take json.text ((Utf8.encode json.text).length % 65536)
      (by omega)
    have decoded := length_withoutMark_le
      (Utf8.lossy ((Utf8.encode json.text).take ((Utf8.encode json.text).length % 65536)))
    have length := congrArg List.length whole
    rw [Page.textHeard, textDecode] at length
    omega
  · intro short
    rw [Page.textHeard, Nat.mod_eq_of_lt short, List.take_length, textDecode, Utf8.lossy_encode,
      withoutMark_json]

end Texts

namespace OutboundPacket

variable {Message Stats State : Type}

-- The packet as the browser has to understand it.
def meaning (json : MessageWriter Message Stats) :
    OutboundPacket Message Stats → Option (Received State)
  | .general message => (json.general message).map (fun json => .general json.text)
  | .stats update => (json.stats update).map (fun json => .stats json.text)
  | .controllerRumble number low high => some (.controller (.rumble number low high))
  | .controllerTriggerRumble number left right => some (.controller (.triggerRumble number left right))
  | .rtt sequenceNumber => some (.echo ([0] ++ BigEndian.bytes 2 sequenceNumber.toNat))

-- The packet is sent, and it is all the browser makes of the frame.
def Arrives (State : Type) (json : MessageWriter Message Stats) (page : Page)
    (packet : OutboundPacket Message Stats) : Prop :=
  ∃ frame, ∃ sent : Received State,
    packet.sendPacket json = some (some frame) ∧ packet.meaning json = some sent ∧
      page.receive (Page.setTransport true) frame = [sent]

-- The text there is fits its length field.
def Fits (json : Option JsonText) : Prop :=
  ∃ text, json = some text ∧ (Utf8.encode text.text).length < 65536

def Carried (json : MessageWriter Message Stats) : OutboundPacket Message Stats → Prop
  | .general message => Fits (json.general message)
  | .stats update => Fits (json.stats update)
  | .controllerRumble .. => False
  | .controllerTriggerRumble .. => False
  | .rtt _ => True

-- Controllers have the numbers below 16.
def Numbered : OutboundPacket Message Stats → Prop
  | .controllerRumble number _ _ => number < 16
  | .controllerTriggerRumble number _ _ => number < 16
  | _ => True

section Delivery

variable (json : MessageWriter Message Stats) (page : Page)

theorem text_arrives_iff {packet : OutboundPacket Message Stats} (channel : UInt8)
    (known : channel ∈ TransportChannelId.all) (written : Option JsonText)
    (kind : List Char → Received State) (injective : Function.Injective kind)
    (serialized : packet.serialize json [] = serializeText channel written [])
    (sent : packet.meaning json = written.map (fun json => kind json.text))
    (heard : ∀ bytes : List UInt8, 2 + bytes.length ≤ 1000000 →
      page.deliver (BigEndian.bytes 2 (bytes.length % 65536) ++ bytes)
        (Page.setTransport true channel) = [kind (Page.textHeard bytes)]) :
    packet.Arrives State json page ↔ Fits written := by
  cases written with
  | none =>
    rw [Option.map_none] at sent
    constructor
    · rintro ⟨frame, received, _, meaning, _⟩
      rw [sent] at meaning
      contradiction
    · rintro ⟨text, missing, _⟩
      contradiction
  | some text =>
    rw [Option.map_some] at sent
    have framed := sendPacket_text channel text serialized
    constructor
    · rintro ⟨frame, received, frameIs, meaning, understood⟩
      refine ⟨text, rfl, ?_⟩
      rw [framed, Option.some.injEq, Option.some.injEq] at frameIs
      rw [sent, Option.some.injEq] at meaning
      subst frameIs meaning
      by_cases fits : 3 + (Utf8.encode text.text).length ≤ 1000000
      · rw [Page.receive_eq page _ channel _ known (by simp; omega), heard _ (by omega),
          List.cons.injEq] at understood
        exact (textHeard_iff text).mp (injective understood.1)
      · rw [Page.receive_long page _ _ (by simp; omega)] at understood
        contradiction
    · rintro ⟨other, same, short⟩
      obtain rfl := Option.some.inj same
      refine ⟨_, _, framed, sent, ?_⟩
      rw [Page.receive_eq page _ channel _ known (by simp; omega), heard _ (by omega),
        (textHeard_iff text).mpr short]

theorem controller_known (number : UInt8) (slot : number < 16) :
    TransportChannelId.controller0 + number ∈ TransportChannelId.all ∧
      Page.setTransport true (TransportChannelId.controller0 + number) = [] := by
  have each : ∀ n : Fin 16,
      TransportChannelId.controller0 + UInt8.ofNat n ∈ TransportChannelId.all ∧
        Page.setTransport true (TransportChannelId.controller0 + UInt8.ofNat n) = [] := by decide
  have found := each ⟨number.toNat, slot⟩
  rwa [UInt8.ofNat_toNat] at found

/-- Nothing listens on the channel a rumble is sent on. -/
theorem motors_unheard {packet : OutboundPacket Message Stats} (number : UInt8)
    (first second : UInt16) (slot : number < 16)
    (serialized : packet.serialize json [] = serializeMotors number first second []) :
    ¬packet.Arrives State json page := by
  rintro ⟨frame, received, frameIs, _, understood⟩
  obtain ⟨known, unheard⟩ := controller_known number slot
  rw [sendPacket_motors number first second serialized, Option.some.injEq,
    Option.some.injEq] at frameIs
  rw [← frameIs, Page.receive_eq page _ _ _ known (by simp), unheard] at understood
  contradiction

theorem rtt_arrives (sequenceNumber : UInt16) :
    (rtt sequenceNumber : OutboundPacket Message Stats).Arrives State json page := by
  refine ⟨_, _, sendPacket_rtt json sequenceNumber, rfl, ?_⟩
  rw [Page.receive_eq page _ _ _ (by decide) (by simp)]
  have listeners : Page.setTransport true TransportChannelId.rtt = [.rtt] := by decide
  rw [listeners]
  obtain ⟨filled, load, loaded⟩ :=
    load_loaded (newBuffer 3) ([0] ++ BigEndian.bytes 2 sequenceNumber.toNat) (by simp [newBuffer])
  obtain ⟨rest, first, _⟩ := getU8_loaded loaded
  have length : ([0] ++ BigEndian.bytes 2 sequenceNumber.toNat).length = 3 := by simp
  simp only [Page.deliver, Page.listen, Page.onRtt, length, reading, bind, StateT.bind,
    Except.bind, load, first]
  rfl

end Delivery

/-- A packet arrives as it was sent exactly when it is a text of at most 65535 bytes
or an echo request. -/
theorem arrives_iff_carried (State : Type) (json : MessageWriter Message Stats) (page : Page)
    (packet : OutboundPacket Message Stats) (numbered : packet.Numbered) :
    packet.Arrives State json page ↔ packet.Carried json := by
  cases packet with
  | general message =>
    apply text_arrives_iff json page TransportChannelId.general (by decide) (json.general message)
      .general (fun _ _ same => Received.general.inj same) rfl rfl
    intro bytes _
    have listeners : Page.setTransport true TransportChannelId.general =
      [.generalChannelMessage] := by decide
    rw [listeners]
    simp [Page.deliver, Page.listen, Page.onGeneralChannelMessage_text, pure, Except.pure]
  | stats update =>
    apply text_arrives_iff json page TransportChannelId.stats (by decide) (json.stats update)
      .stats (fun _ _ same => Received.stats.inj same) rfl rfl
    intro bytes fits
    have listeners : Page.setTransport true TransportChannelId.stats = [.rawData] := by decide
    rw [listeners]
    simp [Page.deliver, Page.listen, Page.onRawData_text page bytes fits]
  | controllerRumble number low high =>
    exact iff_of_false (motors_unheard json page number low high numbered rfl) not_false
  | controllerTriggerRumble number left right =>
    exact iff_of_false (motors_unheard json page number left right numbered rfl) not_false
  | rtt sequenceNumber => exact iff_of_true (rtt_arrives json page sequenceNumber) trivial

-- Messages that are texts already.
def plainWriter : MessageWriter JsonText JsonText := ⟨some, some⟩

def freshPage : Page :=
  ⟨newBuffer 1000000, newBuffer 1024, List.length_replicate, List.length_replicate⟩

def nullText : JsonText := ⟨"null".toList, by decide⟩

theorem arrives_iff_carried_null :
    (stats nullText : OutboundPacket JsonText JsonText).Arrives Unit plainWriter freshPage ↔
      (stats nullText).Carried plainWriter :=
  arrives_iff_carried Unit plainWriter freshPage (stats nullText) trivial

-- A rumble of the first controller is sent on the channel CONTROLLER0.
theorem rumble_unheard :
    (controllerRumble 0 1 2 : OutboundPacket JsonText JsonText).Numbered ∧
      ¬(controllerRumble 0 1 2).Arrives Unit plainWriter freshPage :=
  ⟨show (0 : UInt8) < 16 by decide,
    motors_unheard plainWriter freshPage 0 1 2 (by decide) rfl⟩

end OutboundPacket

end BetterParsec
