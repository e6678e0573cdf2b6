-- SUMMARY: Services as service.c runs them: starting, stopping, and handing on what arrives on their channels.
import Meanwhile.Channel

/-!
# Services

A service is known by its type. The functions here keep its state and call the
functions it has, with the defaults for those it has not.
-/

namespace Meanwhile

variable (h : Hooks)

/-- Set the state of a service. -/
def setServiceState (srvc : UInt32) (state : MwServiceState) : Session Unit :=
  modify fun s =>
    { s with services := s.services.map fun c =>
        if c.type = srvc then { c with state := state } else c }

/-- `MW_SERVICE_IS_DEAD` -/
def MwServiceState.isDead (state : MwServiceState) : Bool := state = .stopping ∨ state = .stopped

/-! ## Starting and stopping -/

/-- `mwService_started` -/
def mwServiceStarted (srvc : UInt32) : Session Unit := setServiceState srvc .started

/-- `mwService_stopped` -/
def mwServiceStopped (srvc : UInt32) : Session Unit := setServiceState srvc .stopped

/-- `mwService_start` -/
def mwServiceStart (srvc : UInt32) : Session Unit := do
  match (← get).service? srvc with
  | none => return
  | some c =>
      if c.state ≠ .stopped then return
      setServiceState srvc .starting
      if c.hasStart then callback h (.start srvc) else mwServiceStarted srvc

/-- Shut down a service that is not dead, through its function or at once. -/
def shutService (srvc : UInt32) (state : MwServiceState) : Session Unit := do
  match (← get).service? srvc with
  | none => return
  | some c =>
      if c.state.isDead then return
      setServiceState srvc state
      if c.hasStop then callback h (.stop srvc) else mwServiceStopped srvc

/-- `mwService_stop` -/
def mwServiceStop (srvc : UInt32) : Session Unit := shutService h srvc .stopping

/-- `mwService_error` -/
def mwServiceError (srvc : UInt32) : Session Unit := shutService h srvc .error

/-! ## Channels of a service -/

def errFailure : UInt32 := 0x80000000
def errRequestInvalid : UInt32 := 0x80000001
def errServiceNoSupport : UInt32 := 0x8000000d

/-- `mwService_recvCreate` -/
def mwServiceRecvCreate (srvc : MwService) (chan : ChanRef) (msg : MwMsgChannelCreate) :
    Session Unit :=
  if srvc.hasRecvCreate then callback h (.recvCreate srvc.type chan msg)
  else discard (mwChannelDestroy h chan errFailure [])

/-- `mwService_recvAccept` -/
def mwServiceRecvAccept (srvc : MwService) (chan : ChanRef) (msg : MwMsgChannelAccept) :
    Session Unit :=
  if srvc.hasRecvAccept then callback h (.recvAccept srvc.type chan msg) else pure ()

/-- `mwService_recvDestroy` -/
def mwServiceRecvDestroy (srvc : MwService) (chan : ChanRef) (msg : MwMsgChannelDestroy) :
    Session Unit :=
  if srvc.hasRecvDestroy then callback h (.recvDestroy srvc.type chan msg) else pure ()

/-- `mwService_recv`, which does nothing without a service -/
def mwServiceRecv (srvc : Option MwService) (chan : ChanRef) (type : UInt16) (data : MwOpaque) :
    Session Unit :=
  match srvc with
  | some srvc => if srvc.hasRecv then callback h (.recv srvc.type chan type data) else pure ()
  | none => pure ()

end Meanwhile
