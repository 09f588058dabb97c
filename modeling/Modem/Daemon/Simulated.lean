import Modem.Session.World

/-! # The simulated modem

A modem that makes up its measurements: LTE and UMTS levels drift by up to 4 dB and back in eight
queries. Its authorizer grants or refuses every request, whoever asks. -/

namespace Modem.Daemon.Simulated

open Session (Response Verdict)
open Signal (Lte Permission Requester Snapshot Umts)

/-- The drift of the `n`-th query in dB. -/
def drift (n : Nat) : Nat := min (n % 8) (8 - n % 8)

def snapshot (n : Nat) : Snapshot :=
  let d : Int := drift n
  { lte := some
      { rssi := .ofHalves (-130 - 2 * d)
        rsrq := .ofHalves (-20 - d)
        rsrp := .ofHalves (-190 - 2 * d)
        snr := .ofHalves (24 - 2 * d) }
    umts := some { rssi := .ofHalves (-164 - 2 * d), ecio := .ofHalves (-14) } }

def respond (n : Nat) : Response where
  lines := [⟨.debug, "Simulated signal query #" ++ toString n ++ " (drift " ++
    toString (drift n) ++ " dB)"⟩]
  result := .ok (snapshot n)

def authorize (allow : Bool) (who : Requester) : Verdict :=
  let action := Permission.deviceControl.action
  if allow then { lines := [⟨.info, "Granting " ++ action ++ " to " ++ who.name⟩] }
  else
    { lines := [⟨.info, "Refusing " ++ action ++ " to " ++ who.name⟩]
      refusal := some (.unauthorized (who.name ++ " is not allowed to perform " ++ action)) }

end Modem.Daemon.Simulated
