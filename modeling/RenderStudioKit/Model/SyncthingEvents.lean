import RenderStudioKit.Lib.Cursor
import RenderStudioKit.Model.ConnectionManager

/-!
# The events of Syncthing

`SyncthingManager.get_events` asks for the events beyond the greatest ID it has seen. What the first
answer with an event brings is from before the service was there, and is thrown away.
-/

namespace RenderStudioKit

structure LoggedEvent where
  id : Nat
  event : SyncthingEvent
deriving DecidableEq

/-- What the request for the events brings: an exception, a status that is not 200, no content, or the
events. -/
inductive EventsResponse where
  | raised
  | status (code : Nat)
  | empty
  | events (events : List LoggedEvent)

/-- The member of `SyncthingManager` that `get_events` uses. -/
structure EventPolling where
  maxEventId : Nat := 0

/-- `get_events`, given the answer to its request. -/
def EventPolling.getEvents (p : EventPolling) : EventsResponse → EventPolling × List LoggedEvent
  | .raised => (p, [])
  | .status _ => (p, [])
  | .empty => (p, [])
  | .events events =>
    ({ p with maxEventId := Cursor.advance LoggedEvent.id p.maxEventId events },
      if p.maxEventId = 0 then [] else events)

/-- Syncthing and the job that polls it. `handled` are the events the job got so far, and `first` is
the greatest ID of the first answer with an event. -/
structure EventFeed where
  log : List LoggedEvent := []
  polling : EventPolling := {}
  first : Nat := 0
  handled : List LoggedEvent := []

/-- Syncthing logs an event under a greater ID, or the job polls. Syncthing answers with the events
beyond the given ID, but without those that have left its buffer, the `dropped` oldest ones. -/
inductive FeedEvent where
  | log (gap : Nat) (event : SyncthingEvent)
  | raised
  | status (code : Nat)
  | empty
  | answer (dropped : Nat)

namespace EventFeed

def poll (f : EventFeed) (response : EventsResponse) : EventFeed :=
  let (polling, events) := f.polling.getEvents response
  { f with
    polling := polling
    first := if f.polling.maxEventId = 0 then polling.maxEventId else f.first
    handled := f.handled ++ events }

def perform (f : EventFeed) : FeedEvent → EventFeed
  | .log gap event =>
    { f with log := f.log ++ [⟨Cursor.last LoggedEvent.id f.log + gap + 1, event⟩] }
  | .raised => f.poll .raised
  | .status code => f.poll (.status code)
  | .empty => f.poll .empty
  | .answer dropped =>
    f.poll (.events ((Cursor.unread LoggedEvent.id f.log f.polling.maxEventId).drop dropped))

end EventFeed

end RenderStudioKit
