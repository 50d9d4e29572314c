import IntcodeMachine.Breakout.Tile
import IntcodeMachine.Snapshot.Basic

/-!
# Snapshots of tiles and joysticks
-/
namespace IntcodeMachine.Snapshot

instance : Snapshot Tile where
  encode t := encodeName t.name
  decode? := decodeName? Tile.all Tile.name

instance : Snapshot Joystick where
  encode j := encodeName j.name
  decode? := decodeName? [.left, .neutral, .right] Joystick.name

end IntcodeMachine.Snapshot
