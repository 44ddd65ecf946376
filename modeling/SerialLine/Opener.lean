import SerialLine.Discovery
import SerialLine.HostPort
/-!
Opening the device behind a port. On a real system the device is the one at the configured path,
or for the USB ports one of the USB devices that the system lists.
-/

set_option autoImplicit false

namespace SerialLine

/-- Opens the device behind a port and brings it to the given settings. -/
structure Opener (World : Type) where
  openPort : Port → LineSettings → World → Except SerialError (Device World) × World

/-- What the host system offers: its serial ports, unless they cannot be had, the arrangement of the
next collection of devices, and opening the port at a path. -/
structure Host (World : Type) where
  enumerate : World → Option (List EnumeratedPort)
  arrange : World → DeviceInfo.Arrangement × World
  openPath : String → Host.Settings → World → Except IoError (HostPort World) × World

namespace Host

variable {World : Type}

/-- A host on which no path leads to a device. -/
def without (enumerated : Option (List EnumeratedPort)) : Host World where
  enumerate _ := enumerated
  arrange w := (.asFound, w)
  openPath _ _ w := (.error ⟨.notFound, "No such file or directory"⟩, w)

/-- The ports that the host enumerates; none if it cannot. -/
def found (host : Host World) (w : World) : List EnumeratedPort := (host.enumerate w).getD []

/-- Looks the path of a port up. The host makes a collection of the devices if they have to be
listed. -/
def resolve (host : Host World) (paths : DevicePaths) (port : Port) (w : World) :
    Option String × World :=
  let (arrangement, next) := host.arrange w
  let listed := (paths.path? port).isNone && port.place?.isSome
  (paths.resolve arrangement (host.found w) port, if listed then next else w)

/-- Opens the device at a path, unless the host cannot express the settings. -/
def openDevice (host : Host World) (path : String) (settings : LineSettings) (w : World) :
    Except IoError (Device World) × World :=
  match Settings.ofLine settings with
  | .error e => (.error e, w)
  | .ok settings =>
    let (port, w) := host.openPath path settings w
    (port.map HostPort.device, w)

/-- Opens ports through the host. -/
def opener (host : Host World) (paths : DevicePaths) : Opener World where
  openPort port settings w :=
    match host.resolve paths port w with
    | (none, w) => (.error (.deviceUnavailable port "no device configured or discovered"), w)
    | (some path, w) =>
      match host.openDevice path settings w with
      | (.ok device, w) => (.ok device, w)
      | (.error e, w) => (.error (.deviceUnavailable port (path ++ ": " ++ e.text)), w)

end Host

end SerialLine
