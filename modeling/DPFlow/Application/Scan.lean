import DPFlow.Application.Main
import DPFlow.SocketCan.Scan

/-!
# Scanning, and connecting what was found

With `--scan` the program prints the channels that its plugins find, and `--interface` takes one
of them as it is printed. Nothing keeps a dot out of the name of an interface, as a VLAN's has;
but the text is taken apart at its first dot, and the one plugin that there is has none.

## Main definitions

* `Main.plugins`, `Main.scanned` — the registry, and the channels that it finds.
* `Main.channelText` — how a channel is printed.
-/
namespace DPFlow.Main

open CanBus (CanInterfaceInfo)

/-- The plugins when `main` is entered. -/
def plugins : CanBus.Registry (String → SocketCanBackend) Unit :=
  (CanBus.registerPlugin ∅ socketCanPlugin).2

/-- The channels that `CanBus::availableChannels` finds. -/
def scanned (os : ScanCalls) : List CanInterfaceInfo :=
  CanBus.availableChannels (fun _ => SocketCanBackend.availableChannels os) plugins

/-- A channel as `main` prints it, behind the label. -/
def channelText (channel : CanInterfaceInfo) : String := channel.plugin ++ "." ++ channel.name

/-- There is one plugin, and the scan is its own. -/
theorem scanned_eq (os : ScanCalls) : scanned os = SocketCanBackend.availableChannels os := by
  have hregister : plugins =
      (∅ : CanBus.Registry (String → SocketCanBackend) Unit).insert "SocketCAN"
        socketCanPlugin := by
    rw [plugins, CanBus.registerPlugin_of_not_contains (by simp)]
    rfl
  have hscans : CanBus.scans plugins = [some ()] := by
    rw [hregister]
    rfl
  rw [scanned, CanBus.availableChannels, hscans, List.flatMap_singleton]

/-- The channels are the interfaces that the socket could be bound to. -/
theorem mem_availableChannels {os : ScanCalls} {channel : CanInterfaceInfo}
    (h : channel ∈ SocketCanBackend.availableChannels os) :
    ∃ interfaces intf, os.nameIndex = some interfaces ∧ intf ∈ interfaces ∧
      SocketCanBackend.bound os intf = true ∧
      channel = SocketCanBackend.channelInfo os intf := by
  rw [SocketCanBackend.availableChannels] at h
  cases hindex : os.nameIndex with
  | none =>
      rw [hindex] at h
      cases h
  | some interfaces =>
      rw [hindex] at h
      obtain ⟨intf, hmem, hchannel⟩ := List.mem_filterMap.mp h
      split_ifs at hchannel with hbound
      cases hchannel
      exact ⟨interfaces, intf, rfl, hmem, hbound, rfl⟩

/-- Connecting a new bus leaves it the name of its channel. -/
theorem connect_busOf (os : Os) (channel : List Char) :
    ∃ ok s, (busOf os SocketCanBackend.init channel).connect .readSocket os.calls =
      some (ok, s) ∧ s.backend._ifname = String.ofList channel := by
  let s := busOf os SocketCanBackend.init channel
  have hopts : System.NoOptions s.backend.toCanInterface := rfl
  obtain ⟨errno, message, -, h⟩ | ⟨fd, message, -, -, h⟩ | ⟨fd, app, -, -, h⟩ :=
    System.connect_cases hopts rfl rfl .readSocket os.calls
  · exact ⟨_, _, h, rfl⟩
  · exact ⟨_, _, h, rfl⟩
  · exact ⟨_, _, h, rfl⟩

/-- **What a scan prints can be connected.** Every channel that is found is an interface of the
system that a raw CAN socket can be bound to; and the program, given its text, makes a bus for
the interface of that very name, dots and all, connects it and runs. -/
theorem main_scanned (os : Os) (n : ℕ) (scan : ScanCalls) {channel : CanInterfaceInfo}
    (h : channel ∈ scanned scan) :
    (∃ interfaces intf, scan.nameIndex = some interfaces ∧ intf ∈ interfaces ∧
      SocketCanBackend.bound scan intf = true ∧ channel.name = intf.name) ∧
    ∃ ok s, (busOf os SocketCanBackend.init channel.name.toList).connect .readSocket os.calls =
        some (ok, s) ∧ s.backend._ifname = channel.name ∧
      main os n (channelText channel) =
        .ok (Application.run (tasks os.recvmsg n).program.call os.polls (host s)) := by
  rw [scanned_eq] at h
  obtain ⟨interfaces, intf, hindex, hmem, hbound, rfl⟩ := mem_availableChannels h
  refine ⟨⟨interfaces, intf, hindex, hmem, hbound, rfl⟩, ?_⟩
  obtain ⟨ok, s, hconnect, hname⟩ := connect_busOf os intf.name.toList
  rw [String.ofList_toList] at hname
  refine ⟨ok, s, hconnect, hname, ?_⟩
  have htext : (channelText (SocketCanBackend.channelInfo scan intf)).toList =
      "SocketCAN".toList ++ '.' :: intf.name.toList := by
    have hdot : ".".toList = ['.'] := by decide
    rw [channelText, String.toList_append, String.toList_append, hdot, List.append_assoc]
    rfl
  have hsplit := (splitInterface_eq_some_iff _ _ _).mpr ⟨htext, by decide⟩
  rw [main, hsplit]
  dsimp only
  rw [create_plugin, String.ofList_toList, if_pos rfl]
  simp only [hconnect]

/-- An interface with a dot in its name. -/
theorem main_scanned_vlan :
    let scan : ScanCalls := { System.scanCalls 3 with nameIndex := some [⟨2, "can0.7"⟩] }
    let channel := SocketCanBackend.channelInfo scan ⟨2, "can0.7"⟩
    (∃ interfaces intf, scan.nameIndex = some interfaces ∧ intf ∈ interfaces ∧
      SocketCanBackend.bound scan intf = true ∧ channel.name = intf.name) ∧
    ∃ ok s, (busOf halfSeconds SocketCanBackend.init channel.name.toList).connect .readSocket
        halfSeconds.calls = some (ok, s) ∧ s.backend._ifname = channel.name ∧
      main halfSeconds 1 (channelText channel) =
        .ok (Application.run (tasks halfSeconds.recvmsg 1).program.call halfSeconds.polls
          (host s)) := by
  intro scan channel
  refine main_scanned halfSeconds 1 scan ?_
  rw [scanned_eq]
  exact List.mem_filterMap.mpr ⟨⟨2, "can0.7"⟩, List.mem_singleton_self _, rfl⟩

end DPFlow.Main
