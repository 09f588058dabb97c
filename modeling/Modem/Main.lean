import Modem.Daemon.Launch

/-! # The daemon as a program

There is no bus to serve on from here, so a command line that asks for nothing else ends with a
failure. -/

namespace Modem.Daemon

/-- Where the bus would be. -/
def systemBus : String := "unix:path=/var/run/dbus/system_bus_socket"

/-- What is printed where the wording is not fixed. -/
def unfixedText : String :=
  "error: invalid arguments\n\nFor more information, try '--help'.\n"

end Modem.Daemon

open Modem.Daemon in
def main (arguments : List String) : IO UInt32 := do
  let exit := match (launch arguments {} 0 (.unreachable systemBus)).outcome with
    | .serving station => interrupt station
    | .ended exit => exit
  IO.print exit.stdout
  IO.eprint (exit.stderr.getD unfixedText)
  return .ofNat exit.code
