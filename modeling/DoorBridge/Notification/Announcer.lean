import DoorBridge.Notification

/-!
# Notification.Announcer — what becomes of a notification

The consumer of the channel logs each notification and drives the door status output, which is high unless the
door is closed.
-/

namespace DoorBridge

namespace Notification

/-- What taking a notification off the channel logs. -/
def announcement : Notification → Event
  | currentDoor s => .info s!"Door {s.name}"
  | targetDoor s => .debug s!"Door target {s.name}"
  | active => .info "Opener connected"
  | currentLock b => .info s!"Lock {b}"
  | targetLock b => .debug s!"Lock target {b}"
  | light b => .info s!"Light {b}"
  | motion b => .info s!"Motion {b}"
  | obstruction b => .info s!"Obstructed {b}"
  | motionSensorDiscovered b => .info s!"Motion sensor discovered, reboot required: {b}"
  | restartRequested r => .warn s!"Restart requested: {r.name}"

/-- The level of the door status output that a notification calls for, if it is about the door. -/
def doorLevel? : Notification → Option Bool
  | currentDoor s => some (s ≠ .closed)
  | _ => none

end Notification

end DoorBridge
