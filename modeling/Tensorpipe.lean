import Tensorpipe.StateMachineProofs
import Tensorpipe.QuiescenceProofs
import Tensorpipe.MessageProofs
import Tensorpipe.SelectChannelsProofs
import Tensorpipe.PipeReadProofs
import Tensorpipe.PipeReadInvariantProofs
import Tensorpipe.PipeWriteProofs
import Tensorpipe.PipeWriteInvariantProofs
import Tensorpipe.PipeImplProofs
import Tensorpipe.PipeInvariantProofs
import Tensorpipe.PipeRunProofs
import Tensorpipe.HandshakeProofs
import Tensorpipe.StreamAgreementProofs
import Tensorpipe.PipeWriteStreamProofs
import Tensorpipe.PipeReadStreamProofs
import Tensorpipe.PipeAgreementProofs
import Tensorpipe.PipePairProofs
import Tensorpipe.PipeProgressProofs
import Tensorpipe.ServerArrivalProofs
import Tensorpipe.CursorRingProofs
import Tensorpipe.RingBufferProofs
import Tensorpipe.RingBufferInvariantProofs
import Tensorpipe.RingGeometryProofs
import Tensorpipe.RingOperationProofs
import Tensorpipe.RingAccountingProofs
import Tensorpipe.NopWriterProofs
import Tensorpipe.RingStreamProofs
import Tensorpipe.CreditQueueProofs
import Tensorpipe.ReactorProofs
import Tensorpipe.ReactorOrderProofs
import Tensorpipe.IbvConnectionProofs
import Tensorpipe.IbvLifetimeProofs
import Tensorpipe.OperationSideProofs
import Tensorpipe.CopyChannelProofs
import Tensorpipe.ChannelMemoryProofs
import Tensorpipe.MptChannelProofs
import Tensorpipe.SideImageProofs
import Tensorpipe.MptLaneProofs
import Tensorpipe.CopyPairProofs
import Tensorpipe.AllocatorProofs
import Tensorpipe.HistoryProofs
import Tensorpipe.CudaBasicChannelProofs
import Tensorpipe.CudaBasicSlotProofs
import Tensorpipe.CudaBasicHistoryProofs
import Tensorpipe.CudaBasicRunProofs
import Tensorpipe.CudaBasicSlotSafetyProofs
import Tensorpipe.CudaBasicLayoutProofs
import Tensorpipe.CudaBasicSeriesProofs
import Tensorpipe.CudaBasicBufferProofs
import Tensorpipe.CudaGdrNicProofs
import Tensorpipe.CudaGdrChannelProofs
import Tensorpipe.CudaGdrTeardownProofs
import Tensorpipe.CudaGdrOrderProofs
import Tensorpipe.CudaGdrPairProofs
import Tensorpipe.EventOrderProofs
import Tensorpipe.CudaIpcChannelProofs
import Tensorpipe.CudaIpcSendProofs
import Tensorpipe.CudaIpcOutboxProofs
import Tensorpipe.CudaIpcRecvProofs
import Tensorpipe.CudaIpcPairProofs
import Tensorpipe.CudaIpcCopyProofs
import Tensorpipe.CudaEventPollProofs
import Tensorpipe.FairRunProofs
import Tensorpipe.CudaLoopProofs
import Tensorpipe.DeferredExecutorProofs
import Tensorpipe.EventLoopProofs
import Tensorpipe.EpollLoopProofs
import Tensorpipe.StreamFramingProofs
import Tensorpipe.LengthHeaderProofs
import Tensorpipe.UvConnectionProofs
import Tensorpipe.RegistrationProofs
import Tensorpipe.ListenerProofs
import Tensorpipe.CopyContextProofs
import Tensorpipe.CoreContextProofs
import Tensorpipe.RejectedReadProofs
import Tensorpipe.MptPairProofs
import Tensorpipe.PowerOfTwoProofs
import Tensorpipe.TextProofs
import Tensorpipe.MptDescriptorProofs
import Tensorpipe.SockaddrProofs
import Tensorpipe.SockaddrGrammarProofs
import Tensorpipe.NopReaderProofs
import Tensorpipe.NegotiationProofs
import Tensorpipe.AllocatorRunProofs
import Tensorpipe.RearmableCallbackProofs
import Tensorpipe.RingProgressProofs
import Tensorpipe.ShmConnectionProofs
import Tensorpipe.ShmDeliveryProofs
