import MyTestserver.AccountTheorems
import MyTestserver.BufferTheorems
import MyTestserver.CallbackTheorems
import MyTestserver.CancelTheorems
import MyTestserver.ConversationTheorems
import MyTestserver.DisclosureTheorems
import MyTestserver.DispatchTheorems
import MyTestserver.ExpiryTheorems
import MyTestserver.FrameTheorems
import MyTestserver.HalfCloseTheorems
import MyTestserver.HandshakeTheorems
import MyTestserver.HistoryTheorems
import MyTestserver.JsonLexer
import MyTestserver.JsonLexing
import MyTestserver.JsonTheorems
import MyTestserver.LateLoginTheorems
import MyTestserver.LifetimeTheorems
import MyTestserver.LoginTheorems
import MyTestserver.LoopTheorems
import MyTestserver.MessageTheorems
import MyTestserver.PageTheorems
import MyTestserver.ParserTheorems
import MyTestserver.PollerTheorems
import MyTestserver.ScheduleTheorems
import MyTestserver.SenderTheorems
import MyTestserver.ServerFrame
import MyTestserver.Startup
import MyTestserver.StartupTheorems
import MyTestserver.StrangerTheorems
import MyTestserver.TimerfdTheorems
import MyTestserver.UpgradeTheorems
