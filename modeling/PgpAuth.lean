import PgpAuth.Config.Bounds
import PgpAuth.Gpg.Child
import PgpAuth.Gpg.Lines
import PgpAuth.Gpg.Release
import PgpAuth.Login.Charge
import PgpAuth.Login.Form
import PgpAuth.Login.Modes
import PgpAuth.Nonce.Commands
import PgpAuth.Nonce.Fleet
import PgpAuth.Nonce.Node
import PgpAuth.Nonce.Reclaim
import PgpAuth.Nonce.Segments
import PgpAuth.Nonce.Sockets
import PgpAuth.Nonce.Wire
import PgpAuth.Revocation.FailClosed
import PgpAuth.Revocation.Freshness
import PgpAuth.Revocation.Grammar
import PgpAuth.Shm.Cycles
import PgpAuth.Shm.Lookup
import PgpAuth.System.Bans
import PgpAuth.System.Cookie
import PgpAuth.System.Events
import PgpAuth.System.Flights
import PgpAuth.System.Honest
import PgpAuth.System.OneLogin
import PgpAuth.System.Sessions
import PgpAuth.Throttle.Automaton
import PgpAuth.Throttle.Window
import PgpAuth.Token.ChallengeTrip
import PgpAuth.Token.Rotation
import PgpAuth.Token.SingleUse
