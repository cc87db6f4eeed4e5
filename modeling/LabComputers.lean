import LabComputers.Lib.Transition
import LabComputers.Lib.Port
import LabComputers.Lib.CString
import LabComputers.Lib.Largest
import LabComputers.Lib.Framing
import LabComputers.Lib.Lifetime
import LabComputers.Lib.Raster
import LabComputers.Lib.BitField
import LabComputers.Lib.Traced
import LabComputers.Lib.Picture
import LabComputers.Lib.Rounds
import LabComputers.Lib.MessageLoop
import LabComputers.Proj.Globals
import LabComputers.Proj.Leaderboard
import LabComputers.Proj.LeaderboardProof
import LabComputers.Proj.Sprites
import LabComputers.Proj.Game
import LabComputers.Proj.Keyboard
import LabComputers.Proj.Mouse
import LabComputers.Proj.VideoCard
import LabComputers.Proj.GameLoop
import LabComputers.Proj.GameProof
import LabComputers.Proj.GameLoopProof
import LabComputers.Proj.HandlerProof
import LabComputers.Proj.BoundsProof
import LabComputers.Proj.TextProof
import LabComputers.Proj.VideoCardProof
import LabComputers.Proj.DrawProof
import LabComputers.Proj.GlyphProof
import LabComputers.Proj.PacketProof
import LabComputers.Proj.LossProof
import LabComputers.Proj.LifeProof
import LabComputers.Proj.SubmissionProof
import LabComputers.Proj.LongGameProof
import LabComputers.Proj.ReplayProof
import LabComputers.Proj.SpawnRateProof
import LabComputers.Proj.GameOverProof
import LabComputers.Proj.ClickProof
import LabComputers.Proj.NameProof
import LabComputers.Proj.InsertProof
import LabComputers.Proj.SaveFileProof
import LabComputers.Proj.SaveFormatProof
import LabComputers.Proj.ScoreTextProof
import LabComputers.Proj.RankingProof
import LabComputers.Proj.ScreenProof
import LabComputers.Proj.ScheduleProof
import LabComputers.Proj.HistoryProof
import LabComputers.Proj.SessionProof
import LabComputers.Proj.PauseProof
import LabComputers.Proj.ScancodeProof
import LabComputers.Proj.IsolationProof
import LabComputers.Proj.Startup
import LabComputers.Proj.StartupProof
import LabComputers.Proj.Kbc
import LabComputers.Proj.MouseCommand
import LabComputers.Proj.MouseCommandProof
import LabComputers.Proj.MouseAnswerProof
import LabComputers.Proj.KbcProof
import LabComputers.Proj.Rtc
import LabComputers.Proj.RtcProof
import LabComputers.Proj.ClockProof
import LabComputers.Lab3.Keyboard
import LabComputers.Lab3.KeyboardProof
import LabComputers.Lab3.TestsProof
import LabComputers.Lab3.CommandByte
import LabComputers.Lab3.CommandByteProof
import LabComputers.Proj.I8042
import LabComputers.Proj.I8042Proof
import LabComputers.Lab5.VideoCard
import LabComputers.Lab5.VideoCardProof
import LabComputers.Lab5.RectangleProof
import LabComputers.Lab5.PatternProof
import LabComputers.Lab5.Moving
import LabComputers.Lab5.MovingProof
import LabComputers.Lab5.VideoTest
import LabComputers.Lab5.ShownProof
import LabComputers.Lab5.FramesProof
import LabComputers.Lab5.VideoTestProof
import LabComputers.Lab2.Timer
import LabComputers.Lab2.TimerProof
import LabComputers.Lab2.ElapsedProof
import LabComputers.Lab2.I8254
import LabComputers.Lab2.I8254Proof
import LabComputers.Lab4.Mouse
import LabComputers.Lab4.MouseProof
